import DocComment.Proofs.Xml.Continuation
import DocComment.Proofs.Xml.RoundTrip
import DocComment.Proofs.Xml.Violation

/-!
The same document in other words. Between two tags, character data can be written in many ways,
and there can be comments and instructions as well.

* **Spellings.** What stands between two tags is made of fragments of character data, which can be
  plain text, references and sections (`Fragment`), and of what gives no character data
  (`Insertion`). `Spelling` relates it to the merged text, which is `none` where there is no
  fragment at all.
* **Respellings.** `Respells` relates two texts that have the same tags and, between the tags,
  spellings of the same merged texts. Around the root there may be insertions.
* **Every spelling is read alike** (`Spelling.read`), so that a respelling of an accepted document
  is accepted with the same root (`readDocument_of_respells`).
-/

namespace DocComment.Xml

/-! ### Fragments and insertions -/

/-- The character data that a token gives inside an element. -/
def Token.data? : Token → Option Text
  | .text t => some t
  | .cdata t => some t
  | .reference name => (Reference.ofContent name).toOption.map ([·])
  | _ => none

/-- **The ways to write a part of a text**: plain text, the five references by name, references
by number, and sections. Whatever else is cut off as one token of character data is one as well,
such as a reference by number with a sign. -/
inductive Fragment : Text → Text → Prop
  | raw {w : Text} (hne : w ≠ []) (h : ∀ c ∈ w, c ≠ '<' ∧ c ≠ '&') : Fragment w w
  | predefined {name : String} {c : Char} (h : (name, c) ∈ Reference.predefinedNames) :
      Fragment [c] ('&' :: (name.toList ++ [';']))
  | decimal {digits : Text} {c : Char} (h : Text.IsNumeral 10 digits c.toNat) :
      Fragment [c] ('&' :: ('#' :: digits ++ [';']))
  | hexadecimal {digits : Text} {c : Char} (h : Text.IsNumeral 16 digits c.toNat) :
      Fragment [c] ('&' :: ('#' :: 'x' :: digits ++ [';']))
  | cdata {body : Text} (h : ¬ "]]>".toList <:+: body) :
      Fragment body ("<![CDATA[".toList ++ body ++ "]]>".toList)
  | piece {token : Token} {x w : Text} (htoken : token.data? = some x) (hw : IsPiece token w) :
      Fragment x w

/-- **What gives no character data**: comments, instructions, and whatever else is cut off as a
silent token. -/
inductive Insertion : Text → Prop
  | comment {body : Text} (h : ¬ "-->".toList <:+: body) :
      Insertion ("<!--".toList ++ body ++ "-->".toList)
  | instruction {c : Char} {body : Text} (hc : c ≠ '>') (h : ¬ "?>".toList <:+: c :: body) :
      Insertion ("<?".toList ++ (c :: body) ++ "?>".toList)
  | piece {w : Text} (hw : IsPiece .silent w) : Insertion w

/-- A reference by name or number, given what it is read as. -/
lemma exists_isPiece_of_ofContent {name : Text} {c : Char}
    (hname : ∀ d ∈ name, Reference.isNameChar d = true)
    (hc : Reference.ofContent name = .ok c) :
    ∃ token : Token, token.data? = some [c] ∧ IsPiece token ('&' :: (name ++ [';'])) := by
  refine ⟨.reference name, ?_,
    isPiece_reference fun d hd => Reference.endsName_of_isNameChar (hname d hd)⟩
  rw [Token.data?, hc]
  rfl

/-- **Every fragment is cut off as one token**, and the token gives what the fragment stands
for. -/
lemma Fragment.exists_isPiece {x w : Text} (h : Fragment x w) :
    ∃ token : Token, token.data? = some x ∧ IsPiece token w := by
  cases h with
  | raw hne h =>
      refine ⟨.text x, rfl, .text hne fun c hc => ?_⟩
      simp [Token.isPlain, h c hc]
  | predefined h =>
      exact exists_isPiece_of_ofContent (Reference.Names.predefined h).isNameChar
        (Reference.Names.predefined h).ofContent
  | decimal h =>
      exact exists_isPiece_of_ofContent
        (List.forall_mem_cons.mpr ⟨rfl, Reference.isNameChar_of_isNumeral h⟩)
        (Reference.ofContent_decimal h)
  | hexadecimal h =>
      exact exists_isPiece_of_ofContent
        (List.forall_mem_cons.mpr
          ⟨rfl, List.forall_mem_cons.mpr ⟨rfl, Reference.isNameChar_of_isNumeral h⟩⟩)
        (Reference.ofContent_hexadecimal h)
  | cdata h =>
      have hpiece : IsPiece (.cdata x) ('<' :: '!' :: ("[CDATA[".toList ++ (x ++ "]]>".toList))) :=
        .markup fun rest => by
          have hcut := Text.breakOn_of_not_infix (show '>' ∉ "]]".toList by decide) h rest
          rw [List.cons_append, List.append_assoc]
          exact (Token.declaration_cdata _).trans (Token.upTo_of_breakOn hcut)
      exact ⟨.cdata x, rfl, by simpa using hpiece⟩
  | piece htoken hw => exact ⟨_, htoken, hw⟩

/-- **Every insertion is cut off as a silent token.** -/
lemma Insertion.isPiece {w : Text} (h : Insertion w) : IsPiece .silent w := by
  cases h with
  | @comment body h =>
      have hpiece : IsPiece .silent ('<' :: '!' :: ("--".toList ++ (body ++ "-->".toList))) :=
        .markup fun rest => by
          have hcut := Text.breakOn_of_not_infix (show '>' ∉ "--".toList by decide) h rest
          rw [List.cons_append, List.append_assoc]
          exact (Token.declaration_comment _).trans (Token.upTo_of_breakOn hcut)
      simpa using hpiece
  | @instruction c body hc h =>
      have hpiece : IsPiece .silent ('<' :: '?' :: (c :: body ++ "?>".toList)) :=
        .markup fun rest => by
          have hcut := Text.breakOn_of_not_infix (show '>' ∉ ['?'] by decide) h rest
          have hfront : (c :: body ++ "?>".toList ++ rest).head? ≠ some '>' := fun hhead =>
            hc (Option.some.inj hhead)
          rw [List.cons_append]
          exact Token.instruction_of_breakOn hfront hcut
      simpa using hpiece
  | piece hw => exact hw

/-! ### Spellings of the text between two tags -/

/-- **The spellings of a merged text**, with insertions anywhere between its fragments. -/
inductive Spelling : Option Text → Text → Prop
  | nil : Spelling none []
  | fragment {x w v : Text} {m : Option Text} (hw : Fragment x w) (h : Spelling m v) :
      Spelling (some (x ++ m.getD [])) (w ++ v)
  | insertion {w v : Text} {m : Option Text} (hw : Insertion w) (h : Spelling m v) :
      Spelling m (w ++ v)

/-- Appends a merged text to the innermost element, if there is one. -/
def Nest.pushMerged (n : Nest) : Option Text → Nest
  | none => n
  | some t => n.pushText t

lemma Nest.pushMerged_pushText (n : Nest) (x : Text) (m : Option Text) :
    (n.pushText x).pushMerged m = n.pushMerged (some (x ++ m.getD [])) := by
  cases m with
  | none => simp only [pushMerged, Option.getD_none, List.append_nil]
  | some t => exact n.pushText_pushText x t

/-- Inside an element, character data is appended to the text. -/
lemma Progress.step_of_data? (nest : Nest) {token : Token} {x : Text}
    (h : token.data? = some x) : (inside nest).step token = .ok (inside (nest.pushText x)) := by
  cases token with
  | text t => exact Option.some.inj h ▸ step_of_moves (.text nest t)
  | cdata t => exact Option.some.inj h ▸ step_of_moves (.cdata nest t)
  | reference name =>
      rw [Token.data?] at h
      cases hc : Reference.ofContent name with
      | error e => simp [hc, Except.toOption] at h
      | ok c =>
          obtain rfl : [c] = x := by simpa [hc, Except.toOption] using h
          exact step_of_moves (.reference nest hc)
  | startTag | emptyTag | endTag | silent => cases h

/-- **Every spelling is read alike**: inside an element it appends the merged text. -/
lemma Spelling.read {m : Option Text} {w : Text} (h : Spelling m w) (nest : Nest) (t : Text) :
    (Progress.inside nest).read (w ++ t) = (Progress.inside (nest.pushMerged m)).read t := by
  induction h generalizing nest with
  | nil => rfl
  | fragment hw h ih =>
      obtain ⟨token, htoken, hpiece⟩ := hw.exists_isPiece
      rw [List.append_assoc, hpiece.read, Progress.step_of_data? nest htoken,
        ← Nest.pushMerged_pushText]
      exact ih _
  | insertion hw h ih =>
      rw [List.append_assoc, hw.isPiece.read]
      exact ih nest

/-! ### Texts around the root -/

/-- What may stand after the root: insertions, and whatever is ignored there. -/
inductive IsMargin : Text → Prop
  | nil : IsMargin []
  | insertion {w v : Text} (hw : Insertion w) (h : IsMargin v) : IsMargin (w ++ v)
  | piece {token : Token} {w v : Text} (htoken : token.isIgnored = true) (hw : IsPiece token w)
      (h : IsMargin v) : IsMargin (w ++ v)

lemma IsMargin.read {v : Text} (h : IsMargin v) {p : Progress} (hp : p.names = []) :
    p.read v = p.finish := by
  induction h with
  | nil => exact p.read_nil
  | insertion hw h ih =>
      rw [hw.isPiece.read, Progress.step_of_isIgnored hp rfl]
      exact ih
  | piece htoken hw h ih =>
      rw [hw.read, Progress.step_of_isIgnored hp htoken]
      exact ih

/-! ### Respellings -/

/-- **Respellings of the rest of a document**, given the names of the open elements. Inside the
root the tags stay, and what stands in front of each of them is spelled in another way. -/
inductive RespellsFrom : List Text → Text → Text → Prop
  | outside {v w : Text} (hv : IsMargin v) (hw : IsMargin w) : RespellsFrom [] v w
  | inside {name : Text} {names : List Text} {m : Option Text} {v w tag t u : Text}
      {token : Token} (hv : Spelling m v) (hw : Spelling m w) (htoken : token.isLeaf = false)
      (htag : IsPiece token tag) (h : RespellsFrom (token.namesAfter (name :: names)) t u) :
      RespellsFrom (name :: names) (v ++ (tag ++ t)) (w ++ (tag ++ u))

/-- **Respellings of a document.** Its beginning, up to the tag of the root, stays. -/
inductive Respells : Text → Text → Prop
  | mk {front : List Token} {token : Token} {head t u : Text}
      (hhead : IsCutInto (front ++ [token]) (dropByteOrderMark head))
      (hfront : ∀ x ∈ front, x.isIgnored = true) (htoken : token.isTag = true)
      (h : RespellsFrom (token.namesAfter []) t u) : Respells (head ++ t) (head ++ u)

lemma Nest.names_pushMerged (n : Nest) (m : Option Text) : (n.pushMerged m).names = n.names := by
  cases m <;> rfl

/-- **A respelled rest is read alike.** -/
lemma RespellsFrom.read {names : List Text} {t u : Text} (h : RespellsFrom names t u)
    {p : Progress} (hp : p.names = names) : p.read t = p.read u := by
  induction h generalizing p with
  | outside hv hw => rw [hv.read hp, hw.read hp]
  | @inside name names m v w tag t u token hv hw htoken htag h ih =>
      cases p with
      | before | after => cases hp
      | inside nest =>
          rw [hv.read, hw.read, htag.read, htag.read]
          cases hstep : (Progress.inside (nest.pushMerged m)).step token with
          | error e => rfl
          | ok q =>
              refine ih ((Progress.names_of_step hstep).trans ?_)
              rw [Progress.names, Nest.names_pushMerged]
              exact congrArg (token.namesAfter ·) hp

/-- The tokens in front of the root do not count. -/
lemma Progress.step_of_steps_root {front : List Token} {token : Token} {p : Progress}
    (hfront : ∀ x ∈ front, x.isIgnored = true)
    (h : before.steps (front ++ [token]) = .ok p) : before.step token = .ok p := by
  rw [steps_append_of_steps (steps_of_isIgnored rfl hfront)] at h
  obtain ⟨q, hstep, hq⟩ := exists_of_steps_cons h
  rw [hstep, ← Except.ok.inj hq]

/-- A respelling is read as the document that it respells. -/
lemma Respells.readDocument_eq {t u : Text} (h : Respells t u) :
    readDocument t = readDocument u := by
  obtain ⟨hhead, hfront, -, hrest⟩ := h
  rename_i front token head t u
  have hne : head ≠ [] := by
    rintro rfl
    exact absurd hhead.eq_nil (by simp)
  rw [Progress.readDocument_eq_read, Progress.readDocument_eq_read, dropByteOrderMark_append hne,
    dropByteOrderMark_append hne, hhead.read, hhead.read]
  cases hsteps : Progress.before.steps (front ++ [token]) with
  | error e => rfl
  | ok p =>
      exact hrest.read (Progress.names_of_step (Progress.step_of_steps_root hfront hsteps))

/-! ### Accepted documents have respellings -/

namespace RespellsFrom

variable {name : Text} {names : List Text} {t u : Text}

/-- A fragment in front of both texts belongs to the text in front of the next tag. -/
lemma fragment {x w : Text} (hw : Fragment x w) (h : RespellsFrom (name :: names) t u) :
    RespellsFrom (name :: names) (w ++ t) (w ++ u) := by
  cases h with
  | inside hv hv' htoken htag h =>
      rw [← List.append_assoc w, ← List.append_assoc w]
      exact .inside (.fragment hw hv) (.fragment hw hv') htoken htag h

lemma insertion {w : Text} (hw : Insertion w) (h : RespellsFrom (name :: names) t u) :
    RespellsFrom (name :: names) (w ++ t) (w ++ u) := by
  cases h with
  | inside hv hv' htoken htag h =>
      rw [← List.append_assoc w, ← List.append_assoc w]
      exact .inside (.insertion hw hv) (.insertion hw hv') htoken htag h

/-- What is ignored in front of both texts belongs to the margin. -/
lemma margin {token : Token} {w : Text} (htoken : token.isIgnored = true) (hw : IsPiece token w)
    (h : RespellsFrom [] t u) : RespellsFrom [] (w ++ t) (w ++ u) := by
  cases h with
  | outside hv hv' => exact .outside (.piece htoken hw hv) (.piece htoken hw hv')

/-- The rest of an accepted document is a respelling of itself. -/
lemma of_isCutInto {tokens : List Token} (h : IsCutInto tokens t) {p : Progress} {root : Element}
    (hp : p ≠ .before) (hsteps : p.steps tokens = .ok (.after root)) :
    RespellsFrom p.names t t := by
  -- piece by piece: a tag begins a new spelling, anything else goes in front of the next tag
  induction h generalizing p with
  | nil =>
      obtain rfl : p = .after root := Except.ok.inj hsteps
      exact .outside .nil .nil
  | cons hw hrest ih =>
      obtain ⟨q, hstep, hmore⟩ := Progress.exists_of_steps_cons hsteps
      have hq : q ≠ .before := by
        rintro rfl
        cases Progress.moves_of_step hstep with
        | skipBefore => exact hp rfl
      have hnext := ih hq hmore
      rw [Progress.names_of_step hstep] at hnext
      cases Progress.moves_of_step hstep with
      | skipBefore | openRoot | emptyRoot => exact absurd rfl hp
      | skipAfter _ hignored =>
          rw [Progress.namesAfter_of_isIgnored hignored] at hnext
          exact hnext.margin hignored hw
      | text | cdata => exact hnext.fragment (.piece rfl hw)
      | reference nest hc => exact hnext.fragment (.piece (by rw [Token.data?, hc]; rfl) hw)
      | silent => exact hnext.insertion (.piece hw)
      | startTag | emptyTag | close | closeRoot => exact .inside .nil .nil rfl hw hnext

end RespellsFrom

/-- What a document begins with can be cut off together with its byte order mark. -/
lemma exists_head_of_dropByteOrderMark {t v w : Text} (h : dropByteOrderMark t = v ++ w)
    (hv : v ≠ []) : ∃ head, t = head ++ w ∧ dropByteOrderMark head = v := by
  cases t with
  | nil => exact absurd (List.append_eq_nil_iff.mp h.symm).1 hv
  | cons c t =>
      by_cases hc : c = '\uFEFF'
      · subst hc
        exact ⟨'\uFEFF' :: v, congrArg ('\uFEFF' :: ·) h, rfl⟩
      · rw [dropByteOrderMark_cons hc] at h
        refine ⟨v, h, List.append_cancel_right (?_ : _ ++ w = _)⟩
        rw [← dropByteOrderMark_append hv, ← h, dropByteOrderMark_cons hc]

/-- An accepted document is a respelling of itself. -/
lemma Respells.of_readDocument {t : Text} {root : Element} (h : readDocument t = .ok root) :
    Respells t t := by
  obtain ⟨tokens, hcut, hsteps⟩ := exists_isCutInto_of_readDocument h
  obtain ⟨front, element, back, rfl, helement, hfront, -⟩ :=
    Progress.isSingleRooted_of_steps hsteps
  obtain ⟨token, content, rfl, htoken⟩ : ∃ token content, element = token :: content ∧
      token.isTag = true := by
    cases helement with
    | empty source => exact ⟨_, _, rfl, rfl⟩
    | paired source hcontent => exact ⟨_, _, rfl, rfl⟩
  have happ : front ++ (token :: content ++ back) = (front ++ [token]) ++ (content ++ back) := by
    simp
  rw [happ] at hcut hsteps
  obtain ⟨v, w, hdrop, hv, hw⟩ := hcut.exists_append
  have hne : v ≠ [] := by
    rintro rfl
    exact absurd hv.eq_nil (by simp)
  obtain ⟨head, rfl, rfl⟩ := exists_head_of_dropByteOrderMark hdrop hne
  rw [Progress.steps_append] at hsteps
  obtain ⟨p, hroot, hrest⟩ := exists_of_bind_eq_ok hsteps
  have hstep := Progress.step_of_steps_root hfront hroot
  have hp : p ≠ .before := by
    rintro rfl
    cases Progress.moves_of_step hstep with
    | skipBefore hignored => cases token <;> cases htoken <;> cases hignored
  have hrespells := RespellsFrom.of_isCutInto hw hp hrest
  rw [Progress.names_of_step hstep] at hrespells
  exact .mk hv hfront htoken hrespells

/-- **The spelling of character data does not matter.** Every accepted document has respellings,
being one itself, and each of its respellings is accepted with the same root. -/
theorem readDocument_of_respells {t : Text} {root : Element} (h : readDocument t = .ok root) :
    Respells t t ∧ ∀ u, Respells t u → readDocument u = .ok root :=
  ⟨.of_readDocument h, fun _ hu => hu.readDocument_eq ▸ h⟩

/-- A text with a reference in it, in front of an empty element. -/
def plainSpelling : Text := "<a>".toList ++ "x&lt;<b/></a>".toList

/-- The same with comments, an instruction, a section and a reference by number. -/
def mixedSpelling : Text :=
  "<a>".toList ++ "<!-- > --><![CDATA[x]]>&#x3C;<?c d?><b/></a><!--e-->".toList

/-- The root of both. -/
def spelledRoot : Element where
  tag := { name := ['a'] }
  content := [.text ['x', '<'], .element { name := ['b'], selfClosing := true } []]

theorem readDocument_mixedSpelling :
    readDocument plainSpelling = .ok spelledRoot ∧ Respells plainSpelling mixedSpelling ∧
      readDocument mixedSpelling = .ok spelledRoot := by
  have hplain : Spelling (some ['x', '<']) "x&lt;".toList := by
    have hx : Fragment ['x'] ['x'] :=
      .raw (by decide) (List.forall_mem_singleton.mpr (by decide))
    have h := Spelling.fragment hx
      (.fragment (.predefined (by decide : ("lt", '<') ∈ Reference.predefinedNames)) .nil)
    simpa using h
  have hmixed : Spelling (some ['x', '<']) "<!-- > --><![CDATA[x]]>&#x3C;<?c d?>".toList := by
    have hcode : Text.IsNumeral 16 "3C".toList '<'.toNat :=
      ⟨by decide, [3, 12], by decide, by decide⟩
    have h := Spelling.insertion (.comment (by decide : ¬ "-->".toList <:+: " > ".toList))
      (.fragment (.cdata (by decide : ¬ "]]>".toList <:+: ['x']))
        (.fragment (.hexadecimal hcode)
          (.insertion (.instruction (by decide : 'c' ≠ '>') (by decide : ¬ _ <:+: ['c', ' ', 'd']))
            .nil)))
    simpa using h
  have hroot : IsPiece (.startTag ['a']) "<a>".toList := .markup fun _ => rfl
  have hempty : IsPiece (.emptyTag ['b']) "<b/>".toList := .markup fun _ => rfl
  have hend : IsPiece (.endTag ['a']) "</a>".toList := .markup fun _ => rfl
  have hcomment : IsMargin "<!--e-->".toList := by
    have h := IsMargin.insertion (.comment (by decide : ¬ "-->".toList <:+: ['e'])) .nil
    simpa using h
  have hrest : RespellsFrom [['a']] "x&lt;<b/></a>".toList
      "<!-- > --><![CDATA[x]]>&#x3C;<?c d?><b/></a><!--e-->".toList := by
    have hclosed : RespellsFrom [['a']] _ _ :=
      .inside .nil .nil rfl hend (.outside .nil hcomment)
    have h : RespellsFrom [['a']] _ _ := .inside hplain hmixed rfl hempty hclosed
    simpa using h
  have hrespells : Respells plainSpelling mixedSpelling := by
    have hkeep : dropByteOrderMark "<a>".toList = "<a>".toList := by decide
    have hhead : IsCutInto ([] ++ [.startTag ['a']]) (dropByteOrderMark "<a>".toList) :=
      hkeep ▸ .cons hroot .nil
    have hnames : Token.namesAfter [] (.startTag ['a']) = [['a']] := by decide
    have hafter : RespellsFrom (Token.namesAfter [] (.startTag ['a'])) _ _ := hnames ▸ hrest
    exact .mk hhead (List.forall_mem_nil _) rfl hafter
  have hread : readDocument plainSpelling = .ok spelledRoot := by
    have hgap : Tag.IsGap [] := List.forall_mem_nil _
    have htext : Spells isSpecialInContent ['x', '<'] "x&lt;".toList :=
      .plain rfl (.reference (.predefined (by decide : ("lt", '<') ∈ _)) .nil)
    have hwrites : WritesNode spelledRoot.toNode plainSpelling :=
      .paired (w := []) rfl (.refl _) (.nil hgap) (.cons (.text htext)
        (.cons (.selfClosing (w := []) rfl (.refl _) (.nil hgap)) .nil))
    exact readDocument_eq_ok hwrites (by decide)
  exact ⟨hread, hrespells, (readDocument_of_respells hread).2 _ hrespells⟩

end DocComment.Xml
