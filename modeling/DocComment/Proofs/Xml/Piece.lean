import Mathlib.Data.List.TakeWhile
import DocComment.Proofs.Cut
import DocComment.Proofs.Xml.Step

/-!
The pieces of a document: what is cut off as one token.

* **Cutting is local.** What a token is made of settles that it is cut off, and no later character
  can undo it (`Token.exists_isPiece_of_next`, from one lemma for each kind of markup). Text is the
  exception: a token of text goes on as long as it can.
* **Pieces.** `IsPiece` relates a token to what is written for it. A piece in front of any text is
  read as one step (`IsPiece.read`), also if it is a part of a longer run of text, since a run that
  is taken in two parts is the same as one that is taken at once (`Progress.step_text_append`).
* **Documents are made of pieces.** A text that is cut to its end is one piece after another
  (`isCutInto_scan`), and pieces are read one after another (`IsCutInto.read`).
-/

namespace DocComment.Xml

open Text (IsLocal Takes EndsAt)

/-! ### Document types -/

namespace Doctype

lemma endsAt_afterDeclaration? : EndsAt '>' afterDeclaration? :=
  have entity : ∀ before rest : Text,
      ("!ENTITY".toList.isPrefixOf (before ++ '>' :: rest) ||
        "!ATTLIST".toList.isPrefixOf (before ++ '>' :: rest) ||
        "!NOTATION".toList.isPrefixOf (before ++ '>' :: rest)) =
      ("!ENTITY".toList.isPrefixOf before || "!ATTLIST".toList.isPrefixOf before ||
        "!NOTATION".toList.isPrefixOf before) := fun before rest => by
    rw [Text.isPrefixOf_append_cons (by decide), Text.isPrefixOf_append_cons (by decide),
      Text.isPrefixOf_append_cons (by decide)]
  (Text.endsAt_after? ['?'] '>').ifMark (by decide)
    ((Text.endsAt_after? ['-', '-'] '>').ifMark (by decide)
      ((Text.endsAt_breakUnquoted '>' none).ite entity (Text.endsAt_after? [] '>')))

/-- The internal subset ends at a bracket that is settled by what stands before it. -/
lemma isLocal_afterSubset? : IsLocal afterSubset? some := by
  intro t rest h
  fun_induction afterSubset? t with
  | case1 => cases h
  | case2 r =>
      cases h
      exact ⟨[']'], rfl, fun other => by rw [List.cons_append, afterSubset?, if_pos rfl]; rfl⟩
  | case3 r next hd hc ih =>
      obtain ⟨used, rfl, htakes⟩ := endsAt_afterDeclaration?.isLocal r next hd
      obtain ⟨used', rfl, htakes'⟩ := ih h
      refine ⟨'<' :: (used ++ used'), by simp, fun other => ?_⟩
      rw [List.cons_append, afterSubset?, if_neg (by decide), if_pos rfl, List.append_assoc]
      split
      · rename_i next hnext
        rw [htakes] at hnext
        cases hnext
        exact htakes' other
      · rename_i hnext
        rw [htakes] at hnext
        cases hnext
  | case4 => cases h
  | case5 c r hc hlt ih =>
      obtain ⟨used, rfl, htakes⟩ := ih h
      refine ⟨c :: used, rfl, fun other => ?_⟩
      rw [List.cons_append, afterSubset?, if_neg hc, if_neg hlt, htakes]

lemma endsAt_after? (quote : Option Char) : EndsAt '>' (after? quote) := by
  intro t rest h
  induction t generalizing quote with
  | nil => cases h
  | cons c t ih =>
      rw [after?] at h
      split at h
      · rename_i hclose
        cases h
        obtain rfl : c = '>' := beq_iff_eq.mp (Bool.and_eq_true_iff.mp hclose).2
        exact ⟨[], rfl, fun other => by rw [List.nil_append, after?, if_pos hclose]⟩
      · rename_i hclose
        split at h
        · rename_i hsubset
          obtain ⟨before, rfl, hother⟩ :=
            EndsAt.bind isLocal_afterSubset? (Text.endsAt_after? [] '>') t rest h
          refine ⟨c :: before, rfl, fun other => ?_⟩
          rw [List.cons_append, after?, if_neg hclose, if_pos hsubset]
          exact hother other
        · rename_i hsubset
          obtain ⟨before, rfl, hother⟩ := ih _ h
          refine ⟨c :: before, rfl, fun other => ?_⟩
          rw [List.cons_append, after?, if_neg hclose, if_neg hsubset, hother]

end Doctype

/-! ### Markup -/

namespace Token

/-- A token that is cut off, and what is left. -/
def leaving (token : Token) (rest : Text) : Except Error Cut :=
  .ok ⟨token, rest⟩

section UpTo

variable {part : Part} {body : Text → Token} {token : Token}

lemma upTo_eq_leaving {t rest : Text} (h : upTo part body t = token.leaving rest) :
    ∃ before, Text.breakOn part.closing t = some (before, rest) ∧ body before = token := by
  rw [upTo] at h
  split at h
  · rename_i before after hcut
    cases h
    exact ⟨before, hcut, rfl⟩
  · cases h

lemma upTo_of_breakOn {t before rest : Text}
    (h : Text.breakOn part.closing t = some (before, rest)) :
    upTo part body t = (body before).leaving rest := by
  rw [upTo, h]
  rfl

lemma isLocal_upTo : IsLocal (upTo part body) token.leaving := by
  intro t rest h
  have hclosing : part.closing ≠ [] := by cases part <;> simp [Part.closing]
  obtain ⟨before, hcut, rfl⟩ := upTo_eq_leaving h
  obtain ⟨used, ht, htakes⟩ := Text.isLocal_breakOn hclosing before t rest hcut
  exact ⟨used, ht, fun other => upTo_of_breakOn (htakes other)⟩

lemma isLocal_upToBracket : IsLocal (upToBracket body) token.leaving := by
  intro t rest h
  rw [upToBracket] at h
  split at h
  · rename_i before after hcut
    cases h
    obtain ⟨used, ht, htakes⟩ := Text.isLocal_breakUnquoted '>' none before t rest hcut
    exact ⟨used, ht, fun other => by rw [upToBracket, htakes other]; rfl⟩
  · cases h
  · cases h

end UpTo

/-- Whether a document type is nameless is settled by what stands before the bracket that closes
it. -/
lemma isPrefixOf_dropWhile_append (before rest : Text) :
    ">".toList.isPrefixOf ((before ++ '>' :: rest).dropWhile Text.isMarkupSpace) =
      ">".toList.isPrefixOf ((before ++ ['>']).dropWhile Text.isMarkupSpace) := by
  induction before with
  | nil => rfl
  | cons c before ih =>
      rw [List.cons_append, List.cons_append]
      by_cases hc : Text.isMarkupSpace c = true
      · rw [List.dropWhile_cons_of_pos hc, List.dropWhile_cons_of_pos hc, ih]
      · rw [List.dropWhile_cons_of_neg hc, List.dropWhile_cons_of_neg hc]
        simp [List.isPrefixOf]

/-- A document type is read as its word, seven letters long, and what closes it. -/
lemma doctype_append {word : Text} (hword : word.length = 7) (t : Text) :
    doctype (word ++ t) =
      if beginsWith "DOCTYPE".toList word then
        match Doctype.after? none t with
        | none => .error (.unclosed .doctype)
        | some rest =>
          if ">".toList.isPrefixOf (t.dropWhile Text.isMarkupSpace) then .error .namelessDoctype
          else silent.leaving rest
      else .error (.unclosed .doctype) := by
  have htake : (word ++ t).take 7 = word.take 7 := List.take_append_of_le_length (by omega)
  have hfront : beginsWith "DOCTYPE".toList (word ++ t) = beginsWith "DOCTYPE".toList word :=
    congrArg (fun w : Text => "DOCTYPE".toList == w.map Char.toUpper) htake
  rw [doctype, hfront, List.drop_left' hword]
  rfl

lemma isLocal_doctype {token : Token} : IsLocal doctype token.leaving := by
  intro t rest h
  have hlength : (t.take 7).length = 7 := by
    rw [doctype] at h
    split at h
    · rename_i hword
      simpa using (congrArg List.length (beq_iff_eq.mp hword)).symm
    · cases h
  obtain ⟨word, t, rfl, hword⟩ : ∃ word u, t = word ++ u ∧ word.length = 7 :=
    ⟨_, _, (List.take_append_drop 7 t).symm, hlength⟩
  rw [doctype_append hword] at h
  split at h
  · rename_i hbegins
    split at h
    · cases h
    · rename_i left hleft
      split at h
      · cases h
      · rename_i hnamed
        cases h
        obtain ⟨before, rfl, hother⟩ := Doctype.endsAt_after? none _ _ hleft
        rw [isPrefixOf_dropWhile_append] at hnamed
        refine ⟨word ++ (before ++ ['>']), by simp, fun other => ?_⟩
        have happ : word ++ (before ++ ['>']) ++ other = word ++ (before ++ '>' :: other) := by simp
        rw [happ, doctype_append hword, if_pos hbegins, hother]
        simp only [isPrefixOf_dropWhile_append, if_neg hnamed]
  · cases h

/-- A section of character data, given what follows its opening mark. -/
lemma declaration_cdata (t : Text) :
    declaration ("[CDATA[".toList ++ t) = upTo .cdata cdata t := by
  have hmark : Text.dropMark? "[CDATA[".toList ("[CDATA[".toList ++ t) = some t :=
    Text.dropMark?_eq_some_iff.mpr rfl
  have hfront : "[CDATA[".toList ++ t = '[' :: ("CDATA[".toList ++ t) := rfl
  rw [hfront, declaration, ← hfront, hmark]

/-- A comment, given what follows its opening mark. -/
lemma declaration_comment (t : Text) :
    declaration ("--".toList ++ t) = upTo .comment (fun _ => silent) t := by
  have hmark : Text.dropMark? "--".toList ("--".toList ++ t) = some t :=
    Text.dropMark?_eq_some_iff.mpr rfl
  have hfront : "--".toList ++ t = '-' :: ("-".toList ++ t) := rfl
  rw [hfront, declaration, ← hfront, hmark]

lemma isLocal_declaration {token : Token} : IsLocal declaration token.leaving := by
  intro t rest h
  have hdoctype : ∀ {c : Char} {t : Text}, doctype (c :: t) = token.leaving rest →
      ∃ used, t = used ++ rest ∧ Takes doctype (c :: used) token.leaving :=
    isLocal_doctype.exists_cons (by nofun)
  unfold declaration at h
  split at h
  · split at h
    · rename_i body hbody
      obtain ⟨used, rfl, htakes⟩ := isLocal_upTo body rest h
      refine ⟨"[CDATA[".toList ++ used, ?_, fun other => ?_⟩
      · rw [Text.dropMark?_eq_some_iff.mp hbody, List.append_assoc]
      · rw [List.append_assoc, declaration_cdata]
        exact htakes other
    · cases h
  · split at h
    · rename_i body hbody
      obtain ⟨used, rfl, htakes⟩ := isLocal_upTo body rest h
      refine ⟨"--".toList ++ used, ?_, fun other => ?_⟩
      · rw [Text.dropMark?_eq_some_iff.mp hbody, List.append_assoc]
      · rw [List.append_assoc, declaration_comment]
        exact htakes other
    · cases h
  · obtain ⟨used, rfl, htakes⟩ := hdoctype h
    exact ⟨'D' :: used, rfl, htakes⟩
  · obtain ⟨used, rfl, htakes⟩ := hdoctype h
    exact ⟨'d' :: used, rfl, htakes⟩
  · cases h

/-- Instructions and declarations have the same end. -/
lemma closing_instructionPart (t : Text) : (instructionPart t).closing = "?>".toList := by
  rw [instructionPart]
  split
  · rfl
  · split <;> rfl
  · rfl

/-- An instruction ends at its closing mark, unless it begins with a closing bracket. -/
lemma instruction_of_breakOn {t before rest : Text} (ht : t.head? ≠ some '>')
    (h : Text.breakOn "?>".toList t = some (before, rest)) :
    instruction t = silent.leaving rest := by
  rw [← closing_instructionPart t] at h
  rw [instruction]
  · exact upTo_of_breakOn h
  · rintro u rfl
    exact ht rfl

lemma isLocal_instruction {token : Token} : IsLocal instruction token.leaving := by
  intro t rest h
  have ht : t.head? ≠ some '>' := by
    cases t with
    | nil => simp
    | cons c t =>
        intro hc
        obtain rfl : c = '>' := Option.some.inj hc
        cases h
  have hupTo : upTo (instructionPart t) (fun _ => silent) t = token.leaving rest := by
    rwa [instruction] at h
    rintro u rfl
    exact ht rfl
  obtain ⟨before, hcut, rfl⟩ := upTo_eq_leaving hupTo
  rw [closing_instructionPart] at hcut
  obtain ⟨rfl, htakes⟩ := Text.breakOn_eq_some (by decide) hcut
  refine ⟨before ++ "?>".toList, rfl, fun other => instruction_of_breakOn ?_ (htakes other)⟩
  cases before with
  | nil => exact fun hc => absurd (Option.some.inj hc) (by decide)
  | cons c before => exact ht

lemma isLocal_markup {token : Token} : IsLocal markup token.leaving := by
  intro t rest h
  unfold markup at h
  split at h
  · cases h
  · obtain ⟨used, rfl, htakes⟩ := isLocal_declaration _ rest h
    exact ⟨'!' :: used, rfl, htakes⟩
  · obtain ⟨used, rfl, htakes⟩ := isLocal_instruction _ rest h
    exact ⟨'?' :: used, rfl, htakes⟩
  · obtain ⟨used, rfl, htakes⟩ := isLocal_upToBracket _ rest h
    exact ⟨'/' :: used, rfl, htakes⟩
  · rename_i hnil hbang hquestion hslash
    cases t with
    | nil => exact absurd rfl hnil
    | cons c t =>
        obtain ⟨used, rfl, htakes⟩ := isLocal_upToBracket.exists_cons (by nofun) h
        refine ⟨c :: used, rfl, fun other => ?_⟩
        show markup (c :: (used ++ other)) = _
        rw [markup]
        · exact htakes other
        · exact List.cons_ne_nil _ _
        · exact fun u hu => hbang _ (by rw [(List.cons.inj hu).1])
        · exact fun u hu => hquestion _ (by rw [(List.cons.inj hu).1])
        · exact fun u hu => hslash _ (by rw [(List.cons.inj hu).1])

/-- What is cut off as a reference is a name and a semicolon. -/
lemma exists_name_of_referenceAfter {t rest : Text} {token : Token}
    (h : referenceAfter t = token.leaving rest) :
    ∃ name, (∀ c ∈ name, endsName c = false) ∧ t = name ++ ';' :: rest ∧
      token = .reference name := by
  rw [referenceAfter] at h
  split at h
  · rename_i hend
    cases h
    refine ⟨_, fun c hc => ?_, ?_, rfl⟩
    · simpa using List.mem_takeWhile_imp hc
    · rw [← hend]
      exact List.takeWhile_append_dropWhile.symm
  · cases h

end Token

/-! ### Pieces -/

/-- **What is written for one token.** Markup is cut off whatever follows it. A run of text is a
piece as well, although it may be a part of a longer run. -/
inductive IsPiece : Token → Text → Prop
  | text {w : Text} (hne : w ≠ []) (h : ∀ c ∈ w, Token.isPlain c = true) : IsPiece (.text w) w
  | markup {token : Token} {c : Char} {w : Text}
      (h : Takes (Token.next c) w token.leaving) : IsPiece token (c :: w)

lemma isPiece_reference {name : Text} (h : ∀ c ∈ name, Token.endsName c = false) :
    IsPiece (.reference name) ('&' :: (name ++ [';'])) :=
  .markup fun rest => by
    rw [List.append_assoc]
    exact Progress.next_reference h rest

/-- **What has been cut off is a piece.** -/
lemma Token.exists_isPiece_of_next {c : Char} {t rest : Text} {token : Token}
    (h : next c t = token.leaving rest) : ∃ w, c :: t = w ++ rest ∧ IsPiece token w := by
  by_cases hopen : c = '<'
  · subst hopen
    obtain ⟨used, rfl, htakes⟩ := isLocal_markup t rest h
    exact ⟨'<' :: used, rfl, .markup htakes⟩
  · by_cases hamp : c = '&'
    · subst hamp
      obtain ⟨name, hname, rfl, rfl⟩ := exists_name_of_referenceAfter h
      exact ⟨'&' :: (name ++ [';']), by simp, isPiece_reference hname⟩
    · rw [next, if_neg hopen, if_neg hamp] at h
      cases h
      have hplain : isPlain c = true := by simp [isPlain, hopen, hamp]
      refine ⟨c :: t.takeWhile isPlain, ?_, .text (List.cons_ne_nil _ _) ?_⟩
      · rw [List.cons_append, List.takeWhile_append_dropWhile]
      · exact List.forall_mem_cons.mpr ⟨hplain, fun d hd => List.mem_takeWhile_imp hd⟩

/-! ### Reading pieces -/

/-- A run of text that is taken in two parts is taken as it is in one. -/
lemma Progress.step_text_append (p : Progress) (s t : Text) :
    p.step (.text (s ++ t)) = (p.step (.text s)).bind fun q => q.step (.text t) := by
  have hblank : Text.isBlank (s ++ t) = (Text.isBlank s && Text.isBlank t) := List.all_append
  cases p with
  | inside n =>
      show Except.ok (inside (n.pushText (s ++ t))) = .ok (inside ((n.pushText s).pushText t))
      rw [Nest.pushText_pushText]
  | before | after =>
      simp only [step, stepOutside, hblank]
      cases Text.isBlank s with
      | true => rfl
      | false => rfl

/-- A run of text in front of any text is read as one step, also if the run goes on. -/
lemma Progress.read_run (p : Progress) {w : Text} (hne : w ≠ [])
    (h : ∀ c ∈ w, Token.isPlain c = true) (t : Text) :
    p.read (w ++ t) = (p.step (.text w)).bind fun q => q.read t := by
  have hrun : p.read (w ++ t) = (p.step (.text (w ++ t.takeWhile Token.isPlain))).bind fun q =>
      q.read (t.dropWhile Token.isPlain) := by
    cases w with
    | nil => exact absurd rfl hne
    | cons c w =>
        obtain ⟨hc, hw⟩ := List.forall_mem_cons.mp h
        have hnext := next_of_isPlain hc (w ++ t)
        rw [List.takeWhile_append_of_pos hw, List.dropWhile_append_of_pos hw] at hnext
        exact read_cons p hnext
  rw [hrun]
  cases t with
  | nil => rw [List.takeWhile_nil, List.dropWhile_nil, List.append_nil]
  | cons d t =>
      by_cases hd : Token.isPlain d = true
      · -- the rest of the run is a token of its own for whoever reads from there
        rw [List.takeWhile_cons_of_pos hd, List.dropWhile_cons_of_pos hd, step_text_append]
        cases p.step (.text w) with
        | error e => rfl
        | ok q => exact (read_cons q (next_of_isPlain hd t)).symm
      · rw [List.takeWhile_cons_of_neg hd, List.dropWhile_cons_of_neg hd, List.append_nil]

/-- **A piece is read as one step**, whatever follows it. -/
theorem IsPiece.read {token : Token} {w : Text} (h : IsPiece token w) (p : Progress) (t : Text) :
    p.read (w ++ t) = (p.step token).bind fun q => q.read t := by
  cases h with
  | text hne hall => exact p.read_run hne hall t
  | markup htakes => exact Progress.read_cons p (htakes t)

/-! ### Documents -/

/-- **Texts made of pieces**, and the tokens of the pieces. -/
inductive IsCutInto : List Token → Text → Prop
  | nil : IsCutInto [] []
  | cons {token : Token} {tokens : List Token} {w t : Text} (hw : IsPiece token w)
      (ht : IsCutInto tokens t) : IsCutInto (token :: tokens) (w ++ t)

namespace IsCutInto

lemma eq_nil {tokens : List Token} (h : IsCutInto tokens []) : tokens = [] := by
  generalize ht : ([] : Text) = t at h
  cases h with
  | nil => rfl
  | cons hw hrest =>
      obtain ⟨rfl, -⟩ := List.append_eq_nil_iff.mp ht.symm
      cases hw with
      | text hne => exact absurd rfl hne

/-- What is made of pieces can be taken apart between any two of them. -/
lemma exists_append {xs ys : List Token} {t : Text} (h : IsCutInto (xs ++ ys) t) :
    ∃ v w, t = v ++ w ∧ IsCutInto xs v ∧ IsCutInto ys w := by
  induction xs generalizing t with
  | nil => exact ⟨[], t, rfl, .nil, h⟩
  | cons token xs ih =>
      cases h with
      | cons hw hrest =>
          obtain ⟨v, u, rfl, hv, hu⟩ := ih hrest
          exact ⟨_, u, (List.append_assoc _ _ _).symm, .cons hw hv, hu⟩

end IsCutInto

/-- A text that is cut to its end is made of pieces. -/
lemma isCutInto_scan {t : Text} (h : (scan t).fault = none) : IsCutInto (scan t).tokens t := by
  fun_induction scan t with
  | case1 => exact .nil
  | case2 => cases h
  | case3 c rest cut hcut tail ih =>
      obtain ⟨w, happ, hpiece⟩ := Token.exists_isPiece_of_next hcut
      rw [happ]
      exact .cons hpiece (ih h)

/-- **Pieces are read one after another.** -/
theorem IsCutInto.read {tokens : List Token} {w : Text} (h : IsCutInto tokens w) (p : Progress)
    (t : Text) : p.read (w ++ t) = (p.steps tokens).bind fun q => q.read t := by
  induction h generalizing p with
  | nil => rfl
  | @cons token tokens w u hw hu ih =>
      rw [List.append_assoc, hw.read, Progress.steps]
      cases p.step token with
      | error e => rfl
      | ok q => exact ih q

end DocComment.Xml
