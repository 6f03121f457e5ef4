import DocComment.Proofs.Numeral
import DocComment.Proofs.Xml.Reading

/-!
How characters are spelled in a document. A character stands for itself, unless it is special
where it stands, or it is given by a reference; `Spells` relates a text to its spellings.

* **References.** `Names` lists the references to a character: five characters have a name of
  their own, and every character but the null character has a code. Content and attribute
  values read them alike (`Names.ofContent`, `Names.ofAttribute`).
* **Reading.** A spelling is read back inside an element (`Spells.read`) and in an attribute
  value (`Spells.resolve`).
-/

namespace DocComment.Xml

namespace Reference

/-! ### The references to a character -/

/-- The names of the five characters that have one. -/
def predefinedNames : List (String × Char) :=
  [("lt", '<'), ("gt", '>'), ("amp", '&'), ("apos", '\''), ("quot", '"')]

/-- What can stand between the ampersand and the semicolon of a reference to a character. -/
inductive Names : Text → Char → Prop
  | predefined {name : String} {c : Char} (h : (name, c) ∈ predefinedNames) :
      Names name.toList c
  | decimal {digits : Text} {c : Char} (h : Text.IsNumeral 10 digits c.toNat)
      (hc : c ≠ '\x00') : Names ('#' :: digits) c
  | hexadecimal {digits : Text} {c : Char} (h : Text.IsNumeral 16 digits c.toNat)
      (hc : c ≠ '\x00') : Names ('#' :: 'x' :: digits) c

/-- Whether a character can stand in a reference, between its two marks. -/
def isNameChar (c : Char) : Bool :=
  c.isAlphanum || c == '#'

lemma toNat_le_maxCode (c : Char) : c.toNat ≤ maxCode := by
  have := c.val.toNat_lt
  simp only [maxCode, Char.toNat]
  omega

lemma toNat_ne_zero {c : Char} (h : c ≠ '\x00') : c.toNat ≠ 0 := fun h0 =>
  h (Char.toNat_inj.mp h0)

/-- A decimal numeral has no radix mark. -/
lemma radixOf_of_isNumeral {digits : Text} {n : ℕ} (h : Text.IsNumeral 10 digits n) :
    radixOf digits = (10, digits) := by
  obtain ⟨-, ds, hds, -⟩ := h
  cases digits with
  | nil => rfl
  | cons c t =>
      by_cases hc : c = 'x'
      · subst hc
        cases ds with
        | nil => simp at hds
        | cons d ds => simp [show Text.digit? 10 'x' = none from rfl] at hds
      · rw [radixOf]
        exact fun _ h => hc (List.cons.inj h).1

/-- A numeral begins with neither sign. -/
lemma head_ne_of_isNumeral {radix n : ℕ} {digits t : Text} {s : Char}
    (h : Text.IsNumeral radix digits n) (hs : s.isAlphanum = false) : digits ≠ s :: t := by
  rintro rfl
  have := h.isAlphanum s List.mem_cons_self
  rw [hs] at this
  cases this

lemma contentCode?_of_isNumeral {numeral digits : Text} {radix : ℕ} {c : Char}
    (hr : 0 < radix) (hradix : radixOf numeral = (radix, digits))
    (h : Text.IsNumeral radix digits c.toNat) : contentCode? numeral = some c := by
  have hplus : dropPlus digits = digits := by
    rw [dropPlus]
    exact fun _ => head_ne_of_isNumeral h (by decide)
  simp only [contentCode?, hradix, hplus, Text.readDigits_of_isNumeral hr h (toNat_le_maxCode c)]
  exact Text.charOfCode?_toNat c

lemma attributeCode_of_isNumeral {numeral digits : Text} {radix : ℕ} {c : Char}
    (hr : 0 < radix) (hradix : radixOf numeral = (radix, digits))
    (h : Text.IsNumeral radix digits c.toNat) (hc : c ≠ '\x00') :
    attributeCode numeral = .ok c := by
  simp only [attributeCode, hradix]
  split
  · exact absurd rfl (head_ne_of_isNumeral h (by decide))
  · exact absurd rfl (head_ne_of_isNumeral h (by decide))
  · simp only [Text.readDigits_of_isNumeral hr h (toNat_le_maxCode c), Text.charOfCode?_toNat,
      if_neg (toNat_ne_zero hc)]

/-- No predefined name begins with a number sign. -/
lemma predefined?_numberSign (t : Text) : predefined? ('#' :: t) = none := rfl

lemma ofContent_decimal {digits : Text} {c : Char} (h : Text.IsNumeral 10 digits c.toNat) :
    ofContent ('#' :: digits) = .ok c := by
  have hcode := contentCode?_of_isNumeral (by decide) (radixOf_of_isNumeral h) h
  simp only [ofContent, predefined?_numberSign, hcode]

lemma ofContent_hexadecimal {digits : Text} {c : Char} (h : Text.IsNumeral 16 digits c.toNat) :
    ofContent ('#' :: 'x' :: digits) = .ok c := by
  have hcode : contentCode? ('x' :: digits) = some c :=
    contentCode?_of_isNumeral (by decide) rfl h
  simp only [ofContent, predefined?_numberSign, hcode]

/-- Content reads every reference to a character as that character. -/
lemma Names.ofContent {name : Text} {c : Char} (h : Names name c) :
    Reference.ofContent name = .ok c := by
  cases h with
  | predefined h =>
      simp only [predefinedNames, List.mem_cons, Prod.mk.injEq, List.not_mem_nil, or_false] at h
      rcases h with ⟨rfl, rfl⟩ | ⟨rfl, rfl⟩ | ⟨rfl, rfl⟩ | ⟨rfl, rfl⟩ | ⟨rfl, rfl⟩ <;> rfl
  | decimal h hc => exact ofContent_decimal h
  | hexadecimal h hc => exact ofContent_hexadecimal h

/-- An attribute value reads every reference to a character as that character. -/
lemma Names.ofAttribute {name : Text} {c : Char} (h : Names name c) (start : ℕ) :
    Reference.ofAttribute start name = .ok c := by
  cases h with
  | predefined h =>
      simp only [predefinedNames, List.mem_cons, Prod.mk.injEq, List.not_mem_nil, or_false] at h
      rcases h with ⟨rfl, rfl⟩ | ⟨rfl, rfl⟩ | ⟨rfl, rfl⟩ | ⟨rfl, rfl⟩ | ⟨rfl, rfl⟩ <;> rfl
  | decimal h hc =>
      have hcode := attributeCode_of_isNumeral (by decide) (radixOf_of_isNumeral h) h hc
      simp only [Reference.ofAttribute, hcode]
  | @hexadecimal digits _ h hc =>
      have hcode : attributeCode ('x' :: digits) = .ok c :=
        attributeCode_of_isNumeral (by decide) rfl h hc
      simp only [Reference.ofAttribute, hcode]

lemma isNameChar_of_isNumeral {radix n : ℕ} {digits : Text}
    (h : Text.IsNumeral radix digits n) : ∀ d ∈ digits, isNameChar d = true := fun d hd => by
  rw [isNameChar, h.isAlphanum d hd, Bool.true_or]

lemma Names.isNameChar {name : Text} {c : Char} (h : Names name c) :
    ∀ d ∈ name, isNameChar d = true := by
  cases h with
  | predefined h =>
      simp only [predefinedNames, List.mem_cons, Prod.mk.injEq, List.not_mem_nil, or_false] at h
      rcases h with ⟨rfl, rfl⟩ | ⟨rfl, rfl⟩ | ⟨rfl, rfl⟩ | ⟨rfl, rfl⟩ | ⟨rfl, rfl⟩ <;>
        exact List.all_eq_true.mp rfl
  | decimal h hc => exact List.forall_mem_cons.mpr ⟨rfl, isNameChar_of_isNumeral h⟩
  | hexadecimal h hc =>
      exact List.forall_mem_cons.mpr
        ⟨rfl, List.forall_mem_cons.mpr ⟨rfl, isNameChar_of_isNumeral h⟩⟩

/-- No character in a reference ends its name. -/
lemma endsName_of_isNameChar {c : Char} (h : isNameChar c = true) :
    Token.endsName c = false := by
  have hsemi : c ≠ ';' := by rintro rfl; cases h
  have hamp : c ≠ '&' := by rintro rfl; cases h
  have hopen : c ≠ '<' := by rintro rfl; cases h
  simp [Token.endsName, hsemi, hamp, hopen]

/-- An attribute value is resolved reference by reference. -/
lemma resolveFrom_reference {name : Text} (h : ∀ d ∈ name, endsName d = false) (size : ℕ)
    (rest : Text) :
    resolveFrom size ('&' :: (name ++ ';' :: rest)) =
      (ofAttribute (size - Text.byteLength (name ++ ';' :: rest)) name).bind fun c =>
        (resolveFrom size rest).map (c :: ·) := by
  have hname : ∀ d ∈ name, (!endsName d) = true := fun d hd => by rw [h d hd]; rfl
  have htake : (name ++ ';' :: rest).takeWhile (!endsName ·) = name := by
    rw [List.takeWhile_append_of_pos hname, List.takeWhile_cons_of_neg (by decide),
      List.append_nil]
  have hdrop : (name ++ ';' :: rest).dropWhile (!endsName ·) = ';' :: rest := by
    rw [List.dropWhile_append_of_pos hname, List.dropWhile_cons_of_neg (by decide)]
  rw [resolveFrom, if_pos rfl]
  split
  · rename_i rest' hrest
    rw [hdrop] at hrest
    cases hrest
    simp only [htake]
    cases ofAttribute (size - Text.byteLength (name ++ ';' :: rest)) name <;> rfl
  · rename_i hrest
    exact absurd hdrop (hrest rest)

end Reference

/-! ### Spellings of a text -/

/-- **The spellings of a text.** A character that is not special stands for itself, and any
character can be given by a reference. -/
inductive Spells (special : Char → Bool) : Text → Text → Prop
  | nil : Spells special [] []
  | plain {c : Char} {t w : Text} (hc : special c = false) (h : Spells special t w) :
      Spells special (c :: t) (c :: w)
  | reference {c : Char} {name t w : Text} (hc : Reference.Names name c)
      (h : Spells special t w) : Spells special (c :: t) ('&' :: name ++ ';' :: w)

/-- What cannot stand for itself in content. -/
def isSpecialInContent (c : Char) : Bool :=
  c == '&' || c == '<'

/-- What does not stand for itself in an attribute value. -/
def isSpecialInValue (c : Char) : Bool :=
  "&<>\"'\t\n\r".toList.contains c

/-- The usual reference to a character: its name if it has one, otherwise its decimal code. -/
def Reference.usualName (c : Char) : Text :=
  match predefinedNames.find? (·.2 == c) with
  | some entry => entry.1.toList
  | none => '#' :: Text.decimal c.toNat

/-- The usual spelling of a text: what is special is given by its usual reference. -/
def usualSpelling (special : Char → Bool) (t : Text) : Text :=
  t.flatMap fun c => if special c then '&' :: Reference.usualName c ++ [';'] else [c]

lemma Reference.names_usualName {c : Char} (h : isSpecialInValue c = true) :
    Reference.Names (Reference.usualName c) c := by
  have hmem : c ∈ ['&', '<', '>', '"', '\'', '\t', '\n', '\r'] := by
    simpa [isSpecialInValue] using h
  simp only [List.mem_cons, List.not_mem_nil, or_false] at hmem
  rcases hmem with rfl | rfl | rfl | rfl | rfl | rfl | rfl | rfl
  · exact .predefined (by decide : ("amp", '&') ∈ _)
  · exact .predefined (by decide : ("lt", '<') ∈ _)
  · exact .predefined (by decide : ("gt", '>') ∈ _)
  · exact .predefined (by decide : ("quot", '"') ∈ _)
  · exact .predefined (by decide : ("apos", '\'') ∈ _)
  · exact .decimal ⟨by decide, [9], by decide, by decide⟩ (by decide)
  · exact .decimal ⟨by decide, [1, 0], by decide, by decide⟩ (by decide)
  · exact .decimal ⟨by decide, [1, 3], by decide, by decide⟩ (by decide)

namespace Spells

variable {special : Char → Bool} {t w : Text}

/-- The usual spelling is a spelling. -/
lemma usual (hs : ∀ c, special c = true → isSpecialInValue c = true) (t : Text) :
    Spells special t (usualSpelling special t) := by
  induction t with
  | nil => exact .nil
  | cons c t ih =>
      rw [usualSpelling, List.flatMap_cons]
      by_cases hc : special c = true
      · rw [if_pos hc, List.append_assoc]
        exact .reference (Reference.names_usualName (hs c hc)) ih
      · rw [if_neg hc]
        exact .plain (by simpa using hc) ih

/-- A spelling is made of characters that are not special and of the marks and the names of
references. -/
lemma forall_mem {p : Char → Prop} (h : Spells special t w)
    (hplain : ∀ c, special c = false → p c) (hamp : p '&') (hsemi : p ';')
    (hname : ∀ c, Reference.isNameChar c = true → p c) : ∀ c ∈ w, p c := by
  induction h with
  | nil => exact fun c hc => absurd hc List.not_mem_nil
  | plain hc h ih => exact List.forall_mem_cons.mpr ⟨hplain _ hc, ih⟩
  | reference hc h ih =>
      refine List.forall_mem_cons.mpr ⟨hamp, List.forall_mem_append.mpr ⟨?_, ?_⟩⟩
      · exact fun d hd => hname d (hc.isNameChar d hd)
      · exact List.forall_mem_cons.mpr ⟨hsemi, ih⟩

/-- A spelling has no character that is special and no mark of references. -/
lemma not_mem {c : Char} (h : Spells special t w) (hc : special c = true)
    (hmark : c ≠ '&' ∧ c ≠ ';') (hname : Reference.isNameChar c = false) : c ∉ w := by
  have hne : ∀ d ∈ w, c ≠ d := h.forall_mem
    (fun d hd hcd => by rw [← hcd, hc] at hd; cases hd) hmark.1 hmark.2
    (fun d hd hcd => by rw [← hcd, hname] at hd; cases hd)
  exact fun hmem => hne c hmem rfl

/-- Inside an element the spelling of a text appends that text. -/
lemma read (h : Spells special t w) (hamp : special '&' = true) (hlt : special '<' = true)
    (ht : t ≠ []) (n : Nest) (rest : Text) :
    (Progress.inside n).read (w ++ rest) = (Progress.inside (n.pushText t)).read rest := by
  induction h generalizing n with
  | nil => exact absurd rfl ht
  | @plain c t w hc h ih =>
      have hplain : Token.isPlain c = true := by
        have h1 : c ≠ '<' := by rintro rfl; rw [hlt] at hc; cases hc
        have h2 : c ≠ '&' := by rintro rfl; rw [hamp] at hc; cases hc
        simp [Token.isPlain, h1, h2]
      rw [List.cons_append, Progress.read_plain n hplain]
      cases t with
      | nil => cases h; rfl
      | cons d t => rw [ih (List.cons_ne_nil d t), Nest.pushText_pushText]; rfl
  | @reference c name t w hc h ih =>
      have hname : ∀ d ∈ name, Token.endsName d = false := fun d hd =>
        Reference.endsName_of_isNameChar (hc.isNameChar d hd)
      have hassoc : '&' :: name ++ ';' :: w ++ rest = '&' :: name ++ ';' :: (w ++ rest) :=
        List.append_assoc _ _ _
      rw [hassoc, Progress.read_reference n hname hc.ofContent]
      cases t with
      | nil => cases h; rfl
      | cons d t => rw [ih (List.cons_ne_nil d t), Nest.pushText_pushText]; rfl

/-- In an attribute value the spelling of a text resolves to that text. -/
lemma resolveFrom (h : Spells special t w) (hamp : special '&' = true) (size : ℕ) :
    Reference.resolveFrom size w = .ok t := by
  induction h with
  | nil => rw [Reference.resolveFrom]
  | @plain c t w hc h ih =>
      have hne : c ≠ '&' := by rintro rfl; rw [hamp] at hc; cases hc
      rw [Reference.resolveFrom, if_neg hne, ih]
      rfl
  | @reference c name t w hc h ih =>
      have hname : ∀ d ∈ name, Reference.endsName d = false := fun d hd => by
        have hd := hc.isNameChar d hd
        have h1 : d ≠ ';' := by rintro rfl; cases hd
        have h2 : d ≠ '&' := by rintro rfl; cases hd
        simp [Reference.endsName, h1, h2]
      rw [List.cons_append, Reference.resolveFrom_reference hname, hc.ofAttribute, ih]
      rfl

/-- In an attribute value the spelling of a text resolves to that text. -/
lemma resolve (h : Spells special t w) (hamp : special '&' = true) :
    Reference.resolve w = .ok t :=
  h.resolveFrom hamp _

end Spells

end DocComment.Xml
