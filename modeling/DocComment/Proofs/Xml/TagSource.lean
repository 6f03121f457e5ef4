import Mathlib.Data.List.TakeWhile
import DocComment.Proofs.Xml.Step

/-!
What is written in a tag, and that the tag is read as just that.

* **The map of attributes** is sorted, so that it does not depend on the order in which its
  entries come (`Attributes.ofList_of_perm`).
* **Attributes as written.** An attribute is a key, an equals sign and a quotation, with white
  space where it is allowed (`AttributeIn`); a tag has one after another (`AttributesIn`).
* **What they stand for.** Declarations of namespaces stand for nothing, and every other
  attribute for its key with its value resolved (`StandFor`).
* **Reading.** An attribute is read exactly as it is written (`attributeIn_of_readAttribute`,
  `readAttribute_of_attributeIn`), hence all of them are (`attributesIn_of_readAttributes`,
  `readAttributes_of_attributesIn`). No key is written twice, so that nothing is overwritten in
  the map, and nothing but the declarations is left out (`read_eq_ok_iff`).
-/

namespace DocComment

namespace Text

/-- A text is cut off at the first character of a kind. -/
lemma breakOn_singleton {c : Char} {s : Text} (h : c ∉ s) (t : Text) :
    breakOn [c] (s ++ c :: t) = some (s, t) := by
  induction s with
  | nil => simp [breakOn, dropMark?, List.isPrefixOf]
  | cons d s ih =>
      obtain ⟨hd, hs⟩ : c ≠ d ∧ c ∉ s := by simpa using h
      have hno : dropMark? [c] (d :: (s ++ c :: t)) = none := by
        simp [dropMark?, List.isPrefixOf, hd]
      rw [List.cons_append, breakOn, hno, ih hs]

/-- A text is cut at the first place where a character stands. -/
lemma breakOn_singleton_eq_some_iff {c : Char} {t before after : Text} :
    breakOn [c] t = some (before, after) ↔ c ∉ before ∧ t = before ++ c :: after := by
  refine ⟨fun h => ?_, fun ⟨hbefore, ht⟩ => ht ▸ breakOn_singleton hbefore after⟩
  induction t generalizing before with
  | nil => cases h
  | cons d t ih =>
      by_cases hd : c = d
      · subst hd
        have hcut : breakOn [c] (c :: t) = some ([], t) := breakOn_singleton List.not_mem_nil t
        rw [hcut] at h
        cases h
        exact ⟨List.not_mem_nil, rfl⟩
      · have hno : dropMark? [c] (d :: t) = none := by simp [dropMark?, List.isPrefixOf, hd]
        rw [breakOn, hno] at h
        cases hcut : breakOn [c] t with
        | none =>
            rw [hcut] at h
            cases h
        | some cut =>
            rw [hcut] at h
            cases h
            obtain ⟨hbefore, rfl⟩ := ih hcut
            exact ⟨fun hmem => (List.mem_cons.mp hmem).elim hd hbefore, rfl⟩

end Text

namespace Xml

/-! ### The map of attributes -/

lemma precedes_irrefl (a : Text) : precedes a a = false := by
  induction a with
  | nil => rfl
  | cons c t ih => rw [precedes, if_pos rfl, ih]

namespace Attributes

lemma perm_insertSorted {key value : Text} {es : List (Text × Text)}
    (h : key ∉ es.map Prod.fst) : (insertSorted key value es).Perm ((key, value) :: es) := by
  induction es with
  | nil => exact .refl _
  | cons e rest ih =>
      obtain ⟨k, v⟩ := e
      obtain ⟨hne, hrest⟩ : key ≠ k ∧ key ∉ rest.map Prod.fst := by simpa using h
      rw [insertSorted, if_neg hne]
      split
      · exact .refl _
      · exact ((ih hrest).cons _).trans (.swap _ _ _)

lemma perm_foldl_insert (es : List (Text × Text)) (m : Attributes)
    (h : ((m.entries ++ es).map Prod.fst).Nodup) :
    (es.foldl (fun m e => m.insert e.1 e.2) m).entries.Perm (m.entries ++ es) := by
  induction es generalizing m with
  | nil => rw [List.append_nil]; exact .refl _
  | cons e es ih =>
      have hnew : e.1 ∉ m.entries.map Prod.fst := by
        rw [List.map_append, List.map_cons, List.nodup_append] at h
        exact fun hmem => h.2.2 e.1 hmem e.1 List.mem_cons_self rfl
      have hperm : ((m.insert e.1 e.2).entries ++ es).Perm (m.entries ++ e :: es) :=
        ((perm_insertSorted hnew).append_right es).trans List.perm_middle.symm
      exact (ih _ ((hperm.map Prod.fst).nodup_iff.mpr h)).trans hperm

lemma nodup_keys (m : Attributes) : (m.entries.map Prod.fst).Nodup := by
  refine List.Pairwise.map Prod.fst (fun a b hab heq => ?_) m.sorted
  rw [heq, precedes_irrefl] at hab
  cases hab

/-- However the entries of a map are ordered, they make up that map. -/
lemma ofList_of_perm {es : List (Text × Text)} {m : Attributes} (h : es.Perm m.entries) :
    ofList es = m := by
  have hperm : (ofList es).entries.Perm m.entries :=
    (perm_foldl_insert es empty ((h.map Prod.fst).nodup_iff.mpr m.nodup_keys)).trans h
  have heq : (ofList es).entries = m.entries := by
    refine hperm.eq_of_pairwise (fun a b _ _ hab hba => ?_) (ofList es).sorted m.sorted
    have haa := precedes_trans hab hba
    rw [precedes_irrefl] at haa
    cases haa
  cases hm : ofList es
  cases m
  rw [hm] at heq
  simp only at heq
  subst heq
  rfl

end Attributes

namespace Tag

/-! ### Attributes as written -/

/-- White space in a tag. -/
def IsGap (gap : Text) : Prop :=
  ∀ c ∈ gap, Text.isMarkupSpace c = true

instance (gap : Text) : Decidable (IsGap gap) :=
  decidable_of_iff (gap.all Text.isMarkupSpace = true) List.all_eq_true

/-- **The attribute at the front of the rest of a tag**: a key, which goes on up to white space
or an equals sign, then the equals sign and a quotation, which holds the value. -/
inductive AttributeIn : Text → RawAttribute → Prop
  | intro {gap key before after value rest : Text} {first quote : Char} (hgap : IsGap gap)
      (hfirst : Text.isMarkupSpace first = false) (hkey : ∀ c ∈ key, inKey c = true)
      (hbefore : IsGap before) (hafter : IsGap after) (hquote : Text.isQuote quote = true)
      (hvalue : quote ∉ value) :
      AttributeIn
        (gap ++ first :: (key ++ (before ++ '=' :: (after ++ quote :: (value ++ quote :: rest)))))
        ⟨first :: key, value, rest⟩

/-- **The attributes in the rest of a tag**, each with its value as written. -/
inductive AttributesIn : Text → List (Text × Text) → Prop
  | nil {gap : Text} (hgap : IsGap gap) : AttributesIn gap []
  | cons {t : Text} {a : RawAttribute} {es : List (Text × Text)} (ha : AttributeIn t a)
      (h : AttributesIn a.rest es) : AttributesIn t ((a.key, a.value) :: es)

/-- **The entries that attributes as written stand for.** -/
inductive StandFor : List (Text × Text) → List (Text × Text) → Prop
  | nil : StandFor [] []
  | dropped {key value : Text} {es entries : List (Text × Text)}
      (hkey : declaresNamespace key = true) (h : StandFor es entries) :
      StandFor ((key, value) :: es) entries
  | kept {key raw value : Text} {es entries : List (Text × Text)}
      (hkey : declaresNamespace key = false) (hvalue : Reference.resolve raw = .ok value)
      (h : StandFor es entries) : StandFor ((key, raw) :: es) ((key, value) :: entries)

/-- **The tag that is written in a source**: the name, and after it attributes, none of them
twice, that stand for the attributes of the tag. -/
structure IsWrittenIn (tag : Tag) (source : Text) : Prop where
  name : tag.name = nameIn source
  attributes : ∃ es entries, AttributesIn (source.dropWhile (!Text.isMarkupSpace ·)) es ∧
    (es.map Prod.fst).Nodup ∧ StandFor es entries ∧ entries.Perm tag.attributes.entries

/-! ### Reading one attribute -/

/-- The white space at the front of a text, and what follows it. -/
lemma exists_gap (t : Text) : ∃ gap, IsGap gap ∧ t = gap ++ skipSpace t :=
  ⟨t.takeWhile Text.isMarkupSpace, fun _ hc => List.mem_takeWhile_imp hc,
    (List.takeWhile_append_dropWhile).symm⟩

lemma skipSpace_append {gap t : Text} (hgap : IsGap gap)
    (ht : ∀ c ∈ t.head?, ¬ Text.isMarkupSpace c) :
    skipSpace (gap ++ t) = t := by
  rw [skipSpace, List.dropWhile_append_of_pos hgap]
  cases t with
  | nil => rfl
  | cons c t => exact List.dropWhile_cons_of_neg (ht c rfl)

lemma isMarkupSpace_of_skipSpace {t body : Text} {first : Char}
    (h : skipSpace t = first :: body) : Text.isMarkupSpace first = false := by
  have hhead := List.head?_dropWhile_not Text.isMarkupSpace t
  rw [show t.dropWhile Text.isMarkupSpace = first :: body from h] at hhead
  simpa using hhead

section Attribute

variable {size : ℕ} {seen : List (Text × ℕ)} {first : Char} {t body : Text} {a : RawAttribute}

/-- An attribute that is read is written, and its key is new. -/
lemma attributeIn_of_readAttribute (hskip : skipSpace t = first :: body)
    (h : readAttribute size seen first body = .ok a) :
    AttributeIn t a ∧ seen.lookup a.key = none := by
  obtain ⟨gap, hgap, ht⟩ := exists_gap t
  obtain ⟨before, hbefore, hrest⟩ := exists_gap (body.dropWhile inKey)
  simp only [readAttribute] at h
  split at h
  · rename_i afterEquals hequals
    obtain ⟨after, hafter, hquotation⟩ := exists_gap afterEquals
    split at h
    · cases h
    · rename_i hlookup
      split at h
      · cases h
      · rename_i quote quoted hquoted
        split at h
        · rename_i hquote
          split at h
          · rename_i value rest hbreak
            obtain ⟨hvalue, rfl⟩ := Text.breakOn_singleton_eq_some_iff.mp hbreak
            cases h
            have htext : t = gap ++ first :: (body.takeWhile inKey ++
                (before ++ '=' :: (after ++ quote :: (value ++ quote :: rest)))) := by
              rw [← hquoted, ← hquotation, ← hequals, ← hrest, List.takeWhile_append_dropWhile,
                ← hskip]
              exact ht
            rw [htext]
            exact ⟨.intro hgap (isMarkupSpace_of_skipSpace hskip)
              (fun _ hc => List.mem_takeWhile_imp hc) hbefore hafter hquote hvalue, hlookup⟩
          · cases h
        · cases h
  · cases h

/-- A key ends at the white space or the equals sign after it. -/
lemma takeWhile_inKey {key before : Text} (hkey : ∀ c ∈ key, inKey c = true)
    (hbefore : IsGap before) (t : Text) :
    (key ++ (before ++ '=' :: t)).takeWhile inKey = key ∧
      skipSpace ((key ++ (before ++ '=' :: t)).dropWhile inKey) = '=' :: t := by
  have hend : ∃ d u, before ++ '=' :: t = d :: u ∧ inKey d = false := by
    cases before with
    | nil => exact ⟨'=', t, rfl, rfl⟩
    | cons d before => exact ⟨d, _, rfl, by simp [inKey, hbefore d List.mem_cons_self]⟩
  obtain ⟨d, u, hcons, hd⟩ := hend
  constructor
  · rw [List.takeWhile_append_of_pos hkey, hcons, List.takeWhile_cons_of_neg (by simp [hd]),
      List.append_nil]
  · rw [List.dropWhile_append_of_pos hkey, hcons, List.dropWhile_cons_of_neg (by simp [hd]),
      ← hcons]
    exact skipSpace_append hbefore (by rintro c ⟨⟩; decide)

/-- An attribute that is written is read, unless its key is there already. -/
lemma readAttribute_of_written {key before after value rest : Text} {quote : Char}
    (hkey : ∀ c ∈ key, inKey c = true) (hbefore : IsGap before) (hafter : IsGap after)
    (hquote : Text.isQuote quote = true) (hvalue : quote ∉ value)
    (hlookup : seen.lookup (first :: key) = none) :
    readAttribute size seen first
        (key ++ (before ++ '=' :: (after ++ quote :: (value ++ quote :: rest)))) =
      .ok ⟨first :: key, value, rest⟩ := by
  have hquoteSpace : Text.isMarkupSpace quote = false := by
    rcases (Bool.or_eq_true _ _).mp hquote with h | h <;> rw [beq_iff_eq.mp h] <;> rfl
  obtain ⟨htake, hdrop⟩ := takeWhile_inKey hkey hbefore (after ++ quote :: (value ++ quote :: rest))
  have hquotation : skipSpace (after ++ quote :: (value ++ quote :: rest)) =
      quote :: (value ++ quote :: rest) := skipSpace_append hafter (by simpa using hquoteSpace)
  simp only [readAttribute, htake, hdrop, hlookup, hquotation, hquote, if_true,
    Text.breakOn_singleton hvalue]

lemma readAttribute_of_attributeIn (h : AttributeIn t a) :
    ∃ first body, skipSpace t = first :: body ∧ ∀ (size : ℕ) (seen : List (Text × ℕ)),
      seen.lookup a.key = none → readAttribute size seen first body = .ok a := by
  cases h with
  | intro hgap hfirst hkey hbefore hafter hquote hvalue =>
      exact ⟨_, _, skipSpace_append hgap (by simpa using hfirst),
        fun _ _ hlookup => readAttribute_of_written hkey hbefore hafter hquote hvalue hlookup⟩

end Attribute

/-! ### Reading all attributes -/

/-- Whether the keys of attributes are none of those seen before, and all different. -/
def AreNew (seen : List (Text × ℕ)) (es : List (Text × Text)) : Prop :=
  (∀ e ∈ es, seen.lookup e.1 = none) ∧ (es.map Prod.fst).Nodup

lemma areNew_cons_iff {seen : List (Text × ℕ)} {e : Text × Text} {es : List (Text × Text)}
    {position : ℕ} :
    AreNew seen (e :: es) ↔ seen.lookup e.1 = none ∧ AreNew ((e.1, position) :: seen) es := by
  have hlookup : ∀ key : Text, List.lookup key ((e.1, position) :: seen) = none ↔
      key ≠ e.1 ∧ seen.lookup key = none := by
    intro key
    rw [List.lookup_cons]
    by_cases hkey : key = e.1
    · simp [hkey]
    · rw [beq_false_of_ne hkey]
      exact (and_iff_right hkey).symm
  simp only [AreNew, List.forall_mem_cons, List.map_cons, List.nodup_cons, List.mem_map, hlookup]
  constructor
  · rintro ⟨⟨hfirst, hothers⟩, hnot, hnodup⟩
    exact ⟨hfirst, fun f hf => ⟨fun hkey => hnot ⟨f, hf, hkey⟩, hothers f hf⟩, hnodup⟩
  · rintro ⟨hfirst, hothers, hnodup⟩
    exact ⟨⟨hfirst, fun f hf => (hothers f hf).2⟩, fun ⟨f, hf, hkey⟩ => (hothers f hf).1 hkey,
      hnodup⟩

lemma readAttributes_nil {size : ℕ} {seen : List (Text × ℕ)} {t : Text} (h : skipSpace t = []) :
    readAttributes size seen t = .ok [] := by
  rw [readAttributes]
  split
  · rfl
  · rename_i heq
    rw [h] at heq
    cases heq

/-- What is done with an attribute that has been read. -/
lemma readAttributes_of_readAttribute {size : ℕ} {seen : List (Text × ℕ)} {first : Char}
    {t body : Text} {a : RawAttribute} (h : skipSpace t = first :: body)
    (ha : readAttribute size seen first body = .ok a) :
    readAttributes size seen t =
      let seen := (a.key, size - Text.byteLength (first :: body)) :: seen
      if declaresNamespace a.key then readAttributes size seen a.rest
      else
        match Reference.resolve a.value with
        | .error fault => .error (.badEscape fault)
        | .ok value => (readAttributes size seen a.rest).map ((a.key, value) :: ·) := by
  rw [readAttributes]
  split
  · rename_i heq
    rw [h] at heq
    cases heq
  · rename_i first' body' heq
    rw [h] at heq
    cases heq
    split
    · rename_i e he
      rw [ha] at he
      cases he
    · rename_i a' ha'
      rw [ha] at ha'
      cases ha'
      rfl

/-- Attributes that are read are written. -/
lemma attributesIn_of_readAttributes {size : ℕ} {seen : List (Text × ℕ)} {t : Text}
    {entries : List (Text × Text)} (h : readAttributes size seen t = .ok entries) :
    ∃ es, AttributesIn t es ∧ AreNew seen es ∧ StandFor es entries := by
  fun_induction readAttributes size seen t generalizing entries with
  | case1 _ t hskip =>
      obtain ⟨gap, hgap, ht⟩ := exists_gap t
      rw [hskip, List.append_nil] at ht
      cases h
      exact ⟨[], ht ▸ .nil hgap, ⟨by simp, .nil⟩, .nil⟩
  | case2 => cases h
  | case3 seen t first body hskip a hread _ hkey =>
      rename_i ih
      obtain ⟨hwritten, hlookup⟩ := attributeIn_of_readAttribute hskip hread
      obtain ⟨es, hes, hnew, hstand⟩ := ih h
      exact ⟨_, .cons hwritten hes, areNew_cons_iff.mpr ⟨hlookup, hnew⟩, .dropped hkey hstand⟩
  | case4 => cases h
  | case5 seen t first body hskip a hread _ hkey value hvalue =>
      rename_i ih
      obtain ⟨hwritten, hlookup⟩ := attributeIn_of_readAttribute hskip hread
      obtain ⟨others, hothers, rfl⟩ := exists_of_map_eq_ok h
      obtain ⟨es, hes, hnew, hstand⟩ := ih hothers
      exact ⟨_, .cons hwritten hes, areNew_cons_iff.mpr ⟨hlookup, hnew⟩,
        .kept (by simpa using hkey) hvalue hstand⟩

/-- Attributes that are written are read. -/
lemma readAttributes_of_attributesIn {size : ℕ} {seen : List (Text × ℕ)} {t : Text}
    {es entries : List (Text × Text)} (h : AttributesIn t es) (hnew : AreNew seen es)
    (hstand : StandFor es entries) : readAttributes size seen t = .ok entries := by
  induction h generalizing seen entries with
  | @nil gap hgap =>
      cases hstand
      have hskip := skipSpace_append (t := []) hgap (by simp)
      rw [List.append_nil] at hskip
      exact readAttributes_nil hskip
  | @cons t a es ha h ih =>
      obtain ⟨first, body, hskip, hread⟩ := readAttribute_of_attributeIn ha
      obtain ⟨hlookup, hrest⟩ := areNew_cons_iff.mp hnew
      rw [readAttributes_of_readAttribute hskip (hread size seen hlookup)]
      cases hstand with
      | dropped hkey hstand =>
          simp only [hkey, if_true]
          exact ih hrest hstand
      | kept hkey hvalue hstand =>
          simp only [hkey, Bool.false_eq_true, if_false, hvalue, ih hrest hstand]
          rfl

/-- The keys of the entries are among those written, in the same order. -/
lemma StandFor.sublist_keys {es entries : List (Text × Text)} (h : StandFor es entries) :
    (entries.map Prod.fst).Sublist (es.map Prod.fst) := by
  induction h with
  | nil => exact .slnil
  | dropped hkey h ih => exact ih.cons _
  | kept hkey hvalue h ih => exact ih.cons_cons _

/-- **A tag is read exactly as it is written.** -/
theorem read_eq_ok_iff {selfClosing : Bool} {source : Text} {tag : Tag} :
    read selfClosing source = .ok tag ↔ tag.IsWrittenIn source ∧ tag.selfClosing = selfClosing := by
  constructor
  · intro h
    obtain ⟨hname, hclosing⟩ := of_read h
    refine ⟨⟨hname, ?_⟩, hclosing⟩
    rw [read] at h
    obtain ⟨entries, hread, rfl⟩ := exists_of_map_eq_ok h
    obtain ⟨es, hes, hnew, hstand⟩ := attributesIn_of_readAttributes hread
    have hnodup : (entries.map Prod.fst).Nodup := hstand.sublist_keys.nodup hnew.2
    exact ⟨es, entries, hes, hnew.2, hstand,
      (Attributes.perm_foldl_insert entries .empty hnodup).symm⟩
  · rintro ⟨⟨hname, es, entries, hes, hnodup, hstand, hperm⟩, hclosing⟩
    have hnew : AreNew [] es := ⟨fun _ _ => rfl, hnodup⟩
    have hread : readAttributes (Text.byteLength source) [] _ = .ok entries :=
      readAttributes_of_attributesIn hes hnew hstand
    rw [read, hread]
    obtain ⟨name, attributes, closing⟩ := tag
    simp only at hname hclosing hperm
    rw [Except.map, Attributes.ofList_of_perm hperm, hname, hclosing]
    rfl

/-- The name in a tag ends at the white space after it. -/
lemma nameIn_append {name t : Text} (hname : ∀ c ∈ name, Text.isMarkupSpace c = false)
    (ht : ∀ c ∈ t.head?, Text.isMarkupSpace c = true) :
    nameIn (name ++ t) = name ∧ (name ++ t).dropWhile (!Text.isMarkupSpace ·) = t := by
  have hin : ∀ c ∈ name, (!Text.isMarkupSpace c) = true := fun c hc => by rw [hname c hc]; rfl
  rw [nameIn, List.takeWhile_append_of_pos hin, List.dropWhile_append_of_pos hin]
  cases t with
  | nil => exact ⟨List.append_nil _, rfl⟩
  | cons c t => simp [ht c rfl]

/-- A tag with nothing but a name is read. -/
lemma read_bare (selfClosing : Bool) {name : Text}
    (hname : ∀ c ∈ name, Text.isMarkupSpace c = false) :
    read selfClosing name = .ok { name := name, selfClosing := selfClosing } := by
  obtain ⟨hfront, hrest⟩ := nameIn_append (t := []) hname (by simp)
  rw [List.append_nil] at hfront hrest
  refine read_eq_ok_iff.mpr ⟨⟨hfront.symm, [], [], ?_, .nil, .nil, .refl _⟩, rfl⟩
  rw [hrest]
  exact .nil (List.forall_mem_nil _)

end Tag

end Xml

end DocComment
