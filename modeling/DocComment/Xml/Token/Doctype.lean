import DocComment.Text.Split

/-!
Finding the end of a document type declaration. Nothing in it is interpreted; only its end has
to be found, past quotations, the declarations of an internal subset, and comments and
instructions among them.
-/

namespace DocComment.Xml.Doctype

/-- What follows a declaration of the internal subset, given what comes after its opening angle
bracket. Instructions and comments have their own ends; entity, attribute and notation
declarations may quote the closing bracket; any other ends at the next one. -/
def afterDeclaration? (t : Text) : Option Text :=
  match Text.dropMark? "?".toList t with
  | some body => Text.after? "?>".toList body
  | none =>
    match Text.dropMark? "!--".toList t with
    | some body => Text.after? "-->".toList body
    | none =>
      if "!ENTITY".toList.isPrefixOf t || "!ATTLIST".toList.isPrefixOf t ||
          "!NOTATION".toList.isPrefixOf t then
        (Text.breakUnquoted '>' none t).toOption.map Prod.snd
      else Text.after? ">".toList t

theorem length_of_afterDeclaration? {t rest : Text} (h : afterDeclaration? t = some rest) :
    rest.length ≤ t.length := by
  unfold afterDeclaration? at h
  split at h
  · rename_i body hb
    have h1 := Text.length_of_dropMark? hb
    have h2 := Text.length_of_after? h
    omega
  · split at h
    · rename_i body hb
      have h1 := Text.length_of_dropMark? hb
      have h2 := Text.length_of_after? h
      omega
    · split at h
      · cases hb : Text.breakUnquoted '>' none t with
        | error q => simp [hb, Except.toOption] at h
        | ok cut =>
          obtain ⟨before, after⟩ := cut
          have h1 := Text.length_of_breakUnquoted hb
          simp only [hb, Except.toOption, Option.map_some, Option.some.injEq] at h
          subst h
          omega
      · have h2 := Text.length_of_after? h
        omega

/-- What follows the bracket that closes the internal subset. -/
def afterSubset? (t : Text) : Option Text :=
  match t with
  | [] => none
  | c :: rest =>
    if c = ']' then some rest
    else if c = '<' then
      match _h : afterDeclaration? rest with
      | some next => afterSubset? next
      | none => none
    else afterSubset? rest
termination_by t.length
decreasing_by
  · have := length_of_afterDeclaration? _h
    simp only [List.length_cons]
    omega
  · simp

theorem length_of_afterSubset? {t rest : Text} (h : afterSubset? t = some rest) :
    rest.length ≤ t.length := by
  fun_induction afterSubset? t with
  | case1 => cases h
  | case2 =>
    cases h
    simp
  | case3 r next hd hc ih =>
    have h1 := length_of_afterDeclaration? hd
    have h2 := ih h
    simp only [List.length_cons]
    omega
  | case4 => cases h
  | case5 c r hc hlt ih =>
    have h2 := ih h
    simp only [List.length_cons]
    omega

/-- What follows the declaration, given what follows its opening word and the quotation that is
open there. After an internal subset the next closing bracket ends it. -/
def after? (quote : Option Char) : Text → Option Text
  | [] => none
  | c :: t =>
    if quote.isNone && c == '>' then some t
    else if quote.isNone && c == '[' then (afterSubset? t).bind (Text.after? ">".toList)
    else after? (Text.quoteAfter quote c) t

theorem length_of_after? {quote : Option Char} {t rest : Text} (h : after? quote t = some rest) :
    rest.length < t.length := by
  induction t generalizing quote with
  | nil => simp [after?] at h
  | cons c t ih =>
    rw [after?] at h
    split at h
    · cases h
      simp
    · split at h
      · rw [Option.bind_eq_some_iff] at h
        obtain ⟨body, hb, ha⟩ := h
        have h1 := length_of_afterSubset? hb
        have h2 := Text.length_of_after? ha
        simp only [List.length_cons]
        omega
      · have := ih h
        simp only [List.length_cons]
        omega

end DocComment.Xml.Doctype
