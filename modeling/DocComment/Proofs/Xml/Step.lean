import DocComment.Proofs.Xml.Reading

/-!
What a single token does to the progress of a reading. `Moves` lists the ways to take a token
further, one constructor for each, and `step_eq_ok_iff` says that there are no others; whatever a
reading keeps is proved by going through that list.
-/

namespace DocComment.Xml

/-! ### What has come to a result -/

section Except

variable {ε α β : Type} {x : Except ε α} {b : β}

lemma exists_of_map_eq_ok {f : α → β} (h : x.map f = .ok b) : ∃ a, x = .ok a ∧ f a = b := by
  cases x with
  | error e => cases h
  | ok a => exact ⟨a, rfl, Except.ok.inj h⟩

lemma exists_of_bind_eq_ok {f : α → Except ε β} (h : x.bind f = .ok b) :
    ∃ a, x = .ok a ∧ f a = .ok b := by
  cases x with
  | error e => cases h
  | ok a => exact ⟨a, rfl, h⟩

end Except

/-! ### Tags and tokens -/

/-- The name in the source of a tag. -/
def Tag.nameIn (source : Text) : Text :=
  source.takeWhile (!Text.isMarkupSpace ·)

/-- A tag that is read has the name in its source. -/
lemma Tag.of_read {selfClosing : Bool} {source : Text} {tag : Tag}
    (h : read selfClosing source = .ok tag) :
    tag.name = nameIn source ∧ tag.selfClosing = selfClosing := by
  obtain ⟨entries, -, rfl⟩ := exists_of_map_eq_ok h
  exact ⟨rfl, rfl⟩

/-- Whether a token means nothing outside the root: white space, and what is silent. -/
def Token.isIgnored : Token → Bool
  | .text t => Text.isBlank t
  | .silent => true
  | _ => false

namespace Progress

/-- **The ways to take a token further.** -/
inductive Moves : Progress → Token → Progress → Prop
  | skipBefore {token : Token} (h : token.isIgnored = true) : Moves before token before
  | openRoot {source : Text} {tag : Tag} (h : Tag.read false source = .ok tag) :
      Moves before (.startTag source) (inside { top := { tag := tag } })
  | emptyRoot {source : Text} {tag : Tag} (h : Tag.read true source = .ok tag) :
      Moves before (.emptyTag source) (after { tag := tag })
  | text (nest : Nest) (t : Text) : Moves (inside nest) (.text t) (inside (nest.pushText t))
  | cdata (nest : Nest) (t : Text) : Moves (inside nest) (.cdata t) (inside (nest.pushText t))
  | reference (nest : Nest) {name : Text} {c : Char} (h : Reference.ofContent name = .ok c) :
      Moves (inside nest) (.reference name) (inside (nest.pushText [c]))
  | silent (nest : Nest) : Moves (inside nest) .silent (inside nest)
  | startTag (nest : Nest) {source : Text} {tag : Tag} (h : Tag.read false source = .ok tag) :
      Moves (inside nest) (.startTag source) (inside (nest.openElement { tag := tag }))
  | emptyTag (nest : Nest) {source : Text} {tag : Tag} (h : Tag.read true source = .ok tag) :
      Moves (inside nest) (.emptyTag source) (inside (nest.pushChild { tag := tag }))
  | close (top parent : Element) (rest : List Element) :
      Moves (inside ⟨top, parent :: rest⟩) (.endTag top.tag.name)
        (inside ⟨parent.pushChild top, rest⟩)
  | closeRoot (root : Element) :
      Moves (inside ⟨root, []⟩) (.endTag root.tag.name) (after root)
  | skipAfter (root : Element) {token : Token} (h : token.isIgnored = true) :
      Moves (after root) token (after root)

/-! ### Outside the root -/

section Outside

variable {stay q : Progress} {started : Tag → Except Error Progress} {token : Token}

lemma stepOutside_of_isIgnored (h : token.isIgnored = true) :
    stepOutside stay started token = .ok stay := by
  cases token with
  | text t => exact if_pos h
  | silent => rfl
  | _ => cases h

/-- Outside the root a token is skipped or is the tag of a root. -/
lemma of_stepOutside (h : stepOutside stay started token = .ok q) :
    (token.isIgnored = true ∧ q = stay) ∨
      ∃ source tag, started tag = .ok q ∧
        ((token = .startTag source ∧ Tag.read false source = .ok tag) ∨
          (token = .emptyTag source ∧ Tag.read true source = .ok tag)) := by
  cases token with
  | text t =>
      rw [stepOutside] at h
      split at h
      · rename_i hblank
        exact .inl ⟨hblank, (Except.ok.inj h).symm⟩
      · cases h
  | silent => exact .inl ⟨rfl, (Except.ok.inj h).symm⟩
  | startTag source =>
      obtain ⟨tag, hread, hstarted⟩ := exists_of_bind_eq_ok h
      exact .inr ⟨source, tag, hstarted, .inl ⟨rfl, hread⟩⟩
  | emptyTag source =>
      obtain ⟨tag, hread, hstarted⟩ := exists_of_bind_eq_ok h
      exact .inr ⟨source, tag, hstarted, .inr ⟨rfl, hread⟩⟩
  | cdata t => cases h
  | reference name => cases h
  | endTag name => cases h

end Outside

/-! ### The ways are all there are -/

lemma step_of_moves {p q : Progress} {token : Token} (h : Moves p token q) :
    p.step token = .ok q := by
  cases h with
  | skipBefore h => exact stepOutside_of_isIgnored h
  | skipAfter root h => exact stepOutside_of_isIgnored h
  | openRoot h =>
      have hroot := (Tag.of_read h).2
      simp only [step, stepOutside, h, Except.bind, ofRootTag, hroot, Bool.false_eq_true, if_false]
  | emptyRoot h =>
      have hroot := (Tag.of_read h).2
      simp only [step, stepOutside, h, Except.bind, ofRootTag, hroot, if_true]
  | text | cdata | silent => rfl
  | reference nest h => simp only [step, stepInside, h, Except.map]
  | startTag nest h => simp only [step, stepInside, h, Except.map]
  | emptyTag nest h => simp only [step, stepInside, h, Except.map]
  | close | closeRoot => exact if_pos rfl

lemma moves_of_step {p q : Progress} {token : Token} (h : p.step token = .ok q) :
    Moves p token q := by
  cases p with
  | before =>
      obtain ⟨hignored, rfl⟩ | ⟨source, tag, hroot, ⟨rfl, hread⟩ | ⟨rfl, hread⟩⟩ := of_stepOutside h
      · exact .skipBefore hignored
      · have hq : ofRootTag tag = q := Except.ok.inj hroot
        rw [ofRootTag, (Tag.of_read hread).2] at hq
        exact hq ▸ .openRoot hread
      · have hq : ofRootTag tag = q := Except.ok.inj hroot
        rw [ofRootTag, (Tag.of_read hread).2] at hq
        exact hq ▸ .emptyRoot hread
  | after root =>
      obtain ⟨hignored, rfl⟩ | ⟨source, tag, hroot, -⟩ := of_stepOutside h
      · exact .skipAfter root hignored
      · cases hroot
  | inside nest =>
      cases token with
      | text t => exact Except.ok.inj h ▸ .text nest t
      | cdata t => exact Except.ok.inj h ▸ .cdata nest t
      | silent => exact Except.ok.inj h ▸ .silent nest
      | reference name =>
          obtain ⟨c, hc, rfl⟩ := exists_of_map_eq_ok h
          exact .reference nest hc
      | startTag source =>
          obtain ⟨tag, hread, rfl⟩ := exists_of_map_eq_ok h
          exact .startTag nest hread
      | emptyTag source =>
          obtain ⟨tag, hread, rfl⟩ := exists_of_map_eq_ok h
          exact .emptyTag nest hread
      | endTag name =>
          obtain ⟨top, outer⟩ := nest
          rw [step, stepInside] at h
          split at h
          · rename_i hname
            subst hname
            cases outer with
            | nil => exact Except.ok.inj h ▸ .closeRoot top
            | cons parent rest => exact Except.ok.inj h ▸ .close top parent rest
          · cases h

/-- **There are no other ways to take a token further.** -/
theorem step_eq_ok_iff {p q : Progress} {token : Token} :
    p.step token = .ok q ↔ Moves p token q :=
  ⟨moves_of_step, step_of_moves⟩

/-! ### Several tokens -/

section Several

variable {p q r : Progress} {token : Token} {tokens : List Token}

/-- Taking the first token, and then the others. -/
lemma steps_cons_of_step (h : p.step token = .ok q) (tokens : List Token) :
    p.steps (token :: tokens) = q.steps tokens := by
  rw [steps, h]

lemma steps_append_of_steps (h : p.steps tokens = .ok q) (later : List Token) :
    p.steps (tokens ++ later) = q.steps later := by
  rw [steps_append, h]
  rfl

/-- If all tokens are taken, the first one is. -/
lemma exists_of_steps_cons (h : p.steps (token :: tokens) = .ok r) :
    ∃ q, p.step token = .ok q ∧ q.steps tokens = .ok r := by
  rw [steps] at h
  cases hstep : p.step token with
  | error e =>
      rw [hstep] at h
      cases h
  | ok q =>
      rw [hstep] at h
      exact ⟨q, rfl, h⟩

end Several

end Progress

end DocComment.Xml
