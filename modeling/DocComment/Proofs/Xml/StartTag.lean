import DocComment.Proofs.Xml.Spelling
import DocComment.Proofs.Xml.TagSource

/-!
Start tags as they are written, and reading them back.

* **The tag as a whole.** A text is balanced if it closes its quotations and has the closing
  bracket only inside them (`IsBalanced`); the bracket after a balanced text is the one that
  ends the tag.
* **Names** are ASCII names (`isName`), which have no white space and none of the marks of a tag.
* **Attributes** are written one after another in any order, each after white space, with the
  special characters of its value given by references (`WritesAttributes`). What is written is
  attributes that stand for the given ones (`WritesAttributes.attributesIn`), so that the tag is
  read back (`read_of_writes`) in whatever order they are written.
-/

namespace DocComment

namespace Text

/-! ### Text outside quotations -/

/-- A text that closes its quotations and has the stop only inside them, so that a search for
the stop passes over it. -/
def IsBalanced (stop : Char) (s : Text) : Prop :=
  ∀ t, breakUnquoted stop none (s ++ t) =
    (breakUnquoted stop none t).map fun cut => (s ++ cut.1, cut.2)

lemma IsBalanced.append {stop : Char} {s₁ s₂ : Text} (h₁ : IsBalanced stop s₁)
    (h₂ : IsBalanced stop s₂) : IsBalanced stop (s₁ ++ s₂) := by
  intro t
  rw [List.append_assoc, h₁, h₂]
  cases breakUnquoted stop none t with
  | error q => rfl
  | ok cut => exact congrArg Except.ok (Prod.ext (List.append_assoc _ _ _).symm rfl)

/-- A text without quotation marks is balanced if it does not have the stop. -/
lemma isBalanced_of_forall {stop : Char} {s : Text}
    (h : ∀ c ∈ s, c ≠ stop ∧ isQuote c = false) : IsBalanced stop s := by
  intro t
  induction s with
  | nil =>
      rw [List.nil_append]
      cases breakUnquoted stop none t <;> rfl
  | cons c s ih =>
      obtain ⟨hc, hs⟩ := List.forall_mem_cons.mp h
      have hstop : (c == stop) = false := by simpa using hc.1
      rw [List.cons_append, breakUnquoted, quoteAfter, hc.2, hstop]
      simp only [Bool.and_false, Bool.false_eq_true, if_false, ih hs]
      cases breakUnquoted stop none t <;> rfl

lemma isBalanced_singleton {stop c : Char} (h : c ≠ stop) (hc : isQuote c = false) :
    IsBalanced stop [c] := by
  refine isBalanced_of_forall fun d hd => ?_
  rw [List.mem_singleton.mp hd]
  exact ⟨h, hc⟩

lemma breakUnquoted_quoted {stop q : Char} {s : Text} (h : q ∉ s) (t : Text) :
    breakUnquoted stop (some q) (s ++ q :: t) =
      (breakUnquoted stop none t).map fun cut => (s ++ q :: cut.1, cut.2) := by
  induction s with
  | nil =>
      rw [List.nil_append, breakUnquoted, quoteAfter]
      simp only [Option.isNone_some, Bool.false_and, Bool.false_eq_true, if_false, beq_self_eq_true,
        if_true]
      cases breakUnquoted stop none t <;> rfl
  | cons c s ih =>
      obtain ⟨hc, hs⟩ : q ≠ c ∧ q ∉ s := by simpa using h
      have hne : (c == q) = false := by simpa using fun hcq : c = q => hc hcq.symm
      rw [List.cons_append, breakUnquoted, quoteAfter, hne]
      simp only [Option.isNone_some, Bool.false_and, Bool.false_eq_true, if_false, ih hs]
      cases breakUnquoted stop none t <;> rfl

/-- A quotation is balanced. -/
lemma isBalanced_quotation {stop q : Char} {s : Text} (hq : isQuote q = true) (hstop : q ≠ stop)
    (h : q ∉ s) : IsBalanced stop (q :: (s ++ [q])) := by
  intro t
  have hne : (q == stop) = false := by simpa using hstop
  have happ : q :: (s ++ [q]) ++ t = q :: (s ++ q :: t) := by simp
  rw [happ, breakUnquoted, quoteAfter, hne]
  simp only [Bool.and_false, Bool.false_eq_true, if_false, hq, if_true, breakUnquoted_quoted h]
  cases breakUnquoted stop none t with
  | error q => rfl
  | ok cut => simp [Except.map]

/-- A balanced text is cut off at the stop that follows it. -/
lemma IsBalanced.breakUnquoted_append {stop : Char} {s : Text} (h : IsBalanced stop s) (t : Text) :
    breakUnquoted stop none (s ++ stop :: t) = .ok (s, t) := by
  rw [h, breakUnquoted]
  simp [Except.map]

end Text

namespace Xml

namespace Tag

/-! ### Names -/

/-- Whether a character can stand in an ASCII name. -/
def isNameChar (c : Char) : Bool :=
  c.isAlphanum || c == '_' || c == '-' || c == '.' || c == ':'

/-- Whether a text is an ASCII name: a letter, then letters, digits, low lines, hyphens, full
stops and colons. -/
def isName : Text → Bool
  | [] => false
  | c :: t => c.isAlpha && t.all isNameChar

lemma isNameChar_of_mem {name : Text} (h : isName name = true) :
    ∀ c ∈ name, isNameChar c = true := by
  cases name with
  | nil => cases h
  | cons c t =>
      obtain ⟨hc, ht⟩ : c.isAlpha = true ∧ ∀ d ∈ t, isNameChar d = true := by
        simpa [isName] using h
      refine List.forall_mem_cons.mpr ⟨?_, ht⟩
      rw [isNameChar, Char.isAlphanum, hc]
      rfl

lemma eq_cons_of_isName {name : Text} (h : isName name = true) :
    ∃ c t, name = c :: t ∧ c.isAlpha = true := by
  cases name with
  | nil => cases h
  | cons c t =>
      rw [isName, Bool.and_eq_true] at h
      exact ⟨c, t, rfl, h.1⟩

/-- None of the characters that mean something in a tag can stand in a name. -/
lemma ne_of_isNameChar {c d : Char} (hc : isNameChar c = true) (hd : isNameChar d = false) :
    c ≠ d := by
  rintro rfl
  rw [hd] at hc
  cases hc

lemma isMarkupSpace_of_isNameChar {c : Char} (h : isNameChar c = true) :
    Text.isMarkupSpace c = false := by
  have hne : c ≠ ' ' ∧ c ≠ '\t' ∧ c ≠ '\n' ∧ c ≠ '\r' :=
    ⟨ne_of_isNameChar h (by decide), ne_of_isNameChar h (by decide),
      ne_of_isNameChar h (by decide), ne_of_isNameChar h (by decide)⟩
  simp [Text.isMarkupSpace, hne]

lemma isBalanced_of_isName {name : Text} (h : isName name = true) : Text.IsBalanced '>' name := by
  refine Text.isBalanced_of_forall fun c hc => ?_
  have hchar := isNameChar_of_mem h c hc
  have hquote : c ≠ '"' ∧ c ≠ '\'' :=
    ⟨ne_of_isNameChar hchar (by decide), ne_of_isNameChar hchar (by decide)⟩
  exact ⟨ne_of_isNameChar hchar (by decide), by simp [Text.isQuote, hquote]⟩

/-! ### Attributes as written -/

/-- **What follows the name in a tag with given attributes**, in the order in which they are
written. White space may stand at the end. -/
inductive WritesAttributes : List (Text × Text) → Text → Prop
  | nil {gap : Text} (hgap : IsGap gap) : WritesAttributes [] gap
  | cons {gap key value w t : Text} {es : List (Text × Text)} (hgap : IsGap gap)
      (hne : gap ≠ []) (hvalue : Spells isSpecialInValue value w)
      (h : WritesAttributes es t) :
      WritesAttributes ((key, value) :: es) (gap ++ (key ++ '=' :: '"' :: (w ++ '"' :: t)))

/-- Attributes as they are usually written. -/
def attributesWritten : List (Text × Text) → Text
  | [] => []
  | (key, value) :: es =>
      [' '] ++ (key ++ '=' :: '"' ::
        (usualSpelling isSpecialInValue value ++ '"' :: attributesWritten es))

/-- Whether attributes can be written and are not declarations of namespaces. -/
def arePlain (es : List (Text × Text)) : Bool :=
  es.all fun e => isName e.1 && !declaresNamespace e.1

/-- What follows the name in a written tag is read as attributes, and they stand for those that
were to be written. -/
lemma WritesAttributes.attributesIn {es : List (Text × Text)} {t : Text}
    (h : WritesAttributes es t) (hes : arePlain es = true) :
    ∃ raw, AttributesIn t raw ∧ StandFor raw es ∧ raw.map Prod.fst = es.map Prod.fst := by
  induction h with
  | nil hgap => exact ⟨[], .nil hgap, .nil, rfl⟩
  | @cons gap key value w t es hgap hne hvalue h ih =>
      obtain ⟨⟨hkey, hns⟩, hplain⟩ :
          (isName key = true ∧ declaresNamespace key = false) ∧ arePlain es = true := by
        simpa [arePlain] using hes
      obtain ⟨raw, hraw, hstand, hkeys⟩ := ih hplain
      obtain ⟨first, key, rfl, -⟩ := eq_cons_of_isName hkey
      obtain ⟨hfirst, hothers⟩ := List.forall_mem_cons.mp (isNameChar_of_mem hkey)
      have hin : ∀ c ∈ key, inKey c = true := fun c hc => by
        have hchar := hothers c hc
        have hne : c ≠ '=' := ne_of_isNameChar hchar (by decide)
        simp [inKey, hne, isMarkupSpace_of_isNameChar hchar]
      have hw : '"' ∉ w := hvalue.not_mem (by decide) (by decide) (by decide)
      have hattribute : AttributeIn (gap ++ (first :: key ++ '=' :: '"' :: (w ++ '"' :: t)))
          ⟨first :: key, w, t⟩ :=
        @AttributeIn.intro gap key [] [] w t first '"' hgap (isMarkupSpace_of_isNameChar hfirst) hin
          (by decide) (by decide) rfl hw
      exact ⟨_, .cons hattribute hraw, .kept hns (hvalue.resolve (by decide)) hstand,
        congrArg ((first :: key) :: ·) hkeys⟩

/-! ### The tag as a whole -/

namespace WritesAttributes

variable {es : List (Text × Text)} {t : Text}

/-- The usual way to write attributes: after one blank each. -/
lemma usual (es : List (Text × Text)) : WritesAttributes es (attributesWritten es) := by
  induction es with
  | nil => exact .nil fun c hc => absurd hc List.not_mem_nil
  | cons e es ih =>
      exact .cons (by decide : IsGap [' ']) (by decide) (Spells.usual (fun _ h => h) e.2) ih

/-- What follows the name begins with white space. -/
lemma isMarkupSpace_of_mem_head? (h : WritesAttributes es t) :
    ∀ c ∈ t.head?, Text.isMarkupSpace c = true := by
  cases h with
  | nil hgap => exact fun c hc => hgap c (List.mem_of_mem_head? hc)
  | @cons gap key value w t es hgap hne hvalue h =>
      cases gap with
      | nil => exact absurd rfl hne
      | cons d gap =>
          intro c hc
          cases hc
          exact hgap d List.mem_cons_self

lemma isBalanced (h : WritesAttributes es t) (hes : arePlain es = true) :
    Text.IsBalanced '>' t := by
  have hspace : ∀ {gap : Text}, IsGap gap → Text.IsBalanced '>' gap := fun hgap =>
    Text.isBalanced_of_forall fun c hc => by
      have hc := hgap c hc
      simp only [Text.isMarkupSpace, Bool.or_eq_true, beq_iff_eq] at hc
      rcases hc with ((rfl | rfl) | rfl) | rfl <;> decide
  induction h with
  | nil hgap => exact hspace hgap
  | @cons gap key value w t es hgap hne hvalue h ih =>
      obtain ⟨⟨hkey, -⟩, hplain⟩ :
          (isName key = true ∧ declaresNamespace key = false) ∧ arePlain es = true := by
        simpa [arePlain] using hes
      have hw : '"' ∉ w := hvalue.not_mem (by decide) (by decide) (by decide)
      have hequals : Text.IsBalanced '>' ['='] := Text.isBalanced_singleton (by decide) rfl
      have hquotation : Text.IsBalanced '>' ('"' :: (w ++ ['"'])) :=
        Text.isBalanced_quotation (by decide) (by decide) hw
      have hall := (hspace hgap).append
        ((isBalanced_of_isName hkey).append (hequals.append (hquotation.append (ih hplain))))
      simpa using hall

lemma getLast?_ne (h : WritesAttributes es t) : t.getLast? ≠ some '/' := by
  induction h with
  | nil hgap =>
      intro hlast
      exact absurd (hgap _ (List.mem_of_getLast? hlast)) (by decide)
  | @cons gap key value w t es hgap hne hvalue h ih =>
      have hlast : (gap ++ (key ++ '=' :: '"' :: (w ++ '"' :: t))).getLast? =
          some (t.getLast?.getD '"') := by
        simp [List.getLast?_append, List.getLast?_cons]
      rw [hlast]
      cases ht : t.getLast? with
      | none => decide
      | some c => rwa [ht] at ih

/-- A written tag does not look like one that closes itself. -/
lemma getLast?_append_ne (h : WritesAttributes es t) {name : Text} (hname : isName name = true) :
    (name ++ t).getLast? ≠ some '/' := by
  rw [List.getLast?_append]
  cases ht : t.getLast? with
  | some c =>
      have hne := h.getLast?_ne
      rwa [ht] at hne
  | none =>
      intro hlast
      exact absurd (isNameChar_of_mem hname _ (List.mem_of_getLast? hlast)) (by decide)

end WritesAttributes

/-- Whether a tag has a name and attributes that can be written. -/
def isPlain (tag : Tag) : Bool :=
  isName tag.name && arePlain tag.attributes.entries

lemma isPlain_iff {tag : Tag} :
    tag.isPlain = true ↔ isName tag.name = true ∧ arePlain tag.attributes.entries = true :=
  Bool.and_eq_true_iff

lemma arePlain_of_perm {es fs : List (Text × Text)} (h : es.Perm fs) (hfs : arePlain fs = true) :
    arePlain es = true := by
  rw [arePlain, h.all_eq]
  exact hfs

/-- **A written tag is read back**, in whatever order its attributes are written. -/
lemma read_of_writes {tag : Tag} (htag : tag.isPlain = true) {es : List (Text × Text)}
    (hes : es.Perm tag.attributes.entries) {t : Text} (h : WritesAttributes es t) :
    read tag.selfClosing (tag.name ++ t) = .ok tag := by
  obtain ⟨hname, hplain⟩ := isPlain_iff.mp htag
  obtain ⟨raw, hraw, hstand, hkeys⟩ := h.attributesIn (arePlain_of_perm hes hplain)
  have hnodup : (raw.map Prod.fst).Nodup := by
    rw [hkeys]
    exact (hes.map Prod.fst).nodup_iff.mpr tag.attributes.nodup_keys
  obtain ⟨hfront, hrest⟩ := nameIn_append
    (fun c hc => isMarkupSpace_of_isNameChar (isNameChar_of_mem hname c hc))
    h.isMarkupSpace_of_mem_head?
  exact read_eq_ok_iff.mpr ⟨⟨hfront.symm, raw, es, hrest.symm ▸ hraw, hnodup, hstand, hes⟩, rfl⟩

end Tag

end Xml

end DocComment
